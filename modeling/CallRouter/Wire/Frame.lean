import CallRouter.ProtocolError
import CallRouter.Wire.Crc32c

/-!
Frames: a header of sixteen bytes and a payload. A frame is read from the front of a buffer. Too
few bytes and a bad header leave the buffer as it is; a whole frame is taken off, also when its
checksum is wrong.
-/

namespace CallRouter.Wire

def magic : Bytes := [0x57, 0x4D, 0x50, 0x58]

def protocolVersion : UInt16 := 1

def maxPayloadSize : UInt32 := 16777216

def headerSize : Nat := 16

def bytes16 (word : UInt16) : Bytes := [(word >>> 8).toUInt8, word.toUInt8]

def bytes32 (word : UInt32) : Bytes :=
  [(word >>> 24).toUInt8, (word >>> 16).toUInt8, (word >>> 8).toUInt8, word.toUInt8]

def word16 (a b : UInt8) : UInt16 := (a.toUInt16 <<< 8) ||| b.toUInt16

def word32 (a b c d : UInt8) : UInt32 :=
  (a.toUInt32 <<< 24) ||| (b.toUInt32 <<< 16) ||| (c.toUInt32 <<< 8) ||| d.toUInt32

structure Header where
  magic : Bytes
  version : UInt16
  flags : UInt16
  size : UInt32
  checksum : UInt32
  deriving DecidableEq, Repr

namespace Header

def bytes (header : Header) : Bytes :=
  header.magic ++ bytes16 header.version ++ bytes16 header.flags ++ bytes32 header.size ++
    bytes32 header.checksum

def read? : Bytes → Option (Header × Bytes)
  | m₀ :: m₁ :: m₂ :: m₃ :: v₀ :: v₁ :: f₀ :: f₁ :: s₀ :: s₁ :: s₂ :: s₃ :: c₀ :: c₁ :: c₂ :: c₃ ::
      rest =>
    some (⟨[m₀, m₁, m₂, m₃], word16 v₀ v₁, word16 f₀ f₁, word32 s₀ s₁ s₂ s₃, word32 c₀ c₁ c₂ c₃⟩,
      rest)
  | _ => none

end Header

structure Frame where
  version : UInt16 := protocolVersion
  checked : Bool := true
  payload : Bytes
  deriving DecidableEq, Repr

namespace Frame

def flags (frame : Frame) : UInt16 := if frame.checked then 1 else 0

def checkedOfFlags (bits : UInt16) : Except ProtocolError Bool :=
  if 1 < bits then .error (.invalidFlags bits) else .ok (bits == 1)

/-- The size that is written and checked is the length of the payload cut to a word of 32 bits. -/
def encode (frame : Frame) : Except ProtocolError Bytes :=
  let size := UInt32.ofNat frame.payload.length
  if maxPayloadSize < size then .error (.frameTooLarge size maxPayloadSize)
  else
    let checksum := if frame.checked then Crc32c.checksum frame.payload else 0
    .ok (Header.bytes ⟨magic, frame.version, frame.flags, size, checksum⟩ ++ frame.payload)

/-- The frame at the front of a buffer, if it is complete, and the buffer that is left. -/
def decode (buffer : Bytes) : Except ProtocolError (Option Frame) × Bytes :=
  match Header.read? buffer with
  | none => (.ok none, buffer)
  | some (header, rest) =>
    if header.magic ≠ magic then (.error (.invalidMagic header.magic), buffer)
    else if header.version ≠ protocolVersion then
      (.error (.unsupportedVersion header.version), buffer)
    else
      match checkedOfFlags header.flags with
      | .error error => (.error error, buffer)
      | .ok checked =>
        if maxPayloadSize < header.size then
          (.error (.frameTooLarge header.size maxPayloadSize), buffer)
        else if rest.length < header.size.toNat then (.ok none, buffer)
        else
          let payload := rest.take header.size.toNat
          let rest := rest.drop header.size.toNat
          if checked && Crc32c.checksum payload != header.checksum then
            (.error (.crcMismatch header.checksum (Crc32c.checksum payload)), rest)
          else (.ok (some ⟨header.version, checked, payload⟩), rest)

theorem length_of_read? {buffer rest : Bytes} {header : Header}
    (found : Header.read? buffer = some (header, rest)) : rest.length < buffer.length := by
  unfold Header.read? at found
  split at found
  · simp only [Option.some.injEq, Prod.mk.injEq] at found
    rw [← found.2]
    simp only [List.length_cons]
    omega
  · cases found

theorem length_of_decode {buffer rest : Bytes} {frame : Frame}
    (found : decode buffer = (.ok (some frame), rest)) : rest.length < buffer.length := by
  unfold decode at found
  split at found
  · simp at found
  · rename_i header after whole
    have shorter := length_of_read? whole
    dsimp only at found
    repeat' split at found
    all_goals simp only [Prod.mk.injEq, Except.ok.injEq, reduceCtorEq, false_and] at found
    rw [← found.2, List.length_drop]
    omega

end Frame

end CallRouter.Wire
