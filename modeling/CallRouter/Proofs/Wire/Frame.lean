import CallRouter.Wire.Frame
import Mathlib.Algebra.Order.Group.Nat

namespace CallRouter.Wire

theorem shiftLeft_or (high : Nat) {low : Nat} (small : low < 256) :
    high <<< 8 ||| low = 256 * high + low := by
  rw [← Nat.shiftLeft_add_eq_or_of_lt (i := 8) small, Nat.shiftLeft_eq]
  omega

theorem shiftLeft_mod (byte : UInt8) {places size : Nat} (inside : 8 + places ≤ size) :
    byte.toNat <<< places % 2 ^ size = byte.toNat <<< places := by
  apply Nat.mod_eq_of_lt
  calc byte.toNat <<< places
    _ < 2 ^ 8 * 2 ^ places := by
      rw [Nat.shiftLeft_eq]
      exact Nat.mul_lt_mul_of_pos_right byte.toNat_lt (Nat.two_pow_pos places)
    _ ≤ 2 ^ size := by
      rw [← Nat.pow_add]
      exact Nat.pow_le_pow_right (by decide) inside

theorem toNat_word16 (a b : UInt8) : (word16 a b).toNat = 256 * a.toNat + b.toNat := by
  show a.toNat <<< 8 % 2 ^ 16 ||| b.toNat = _
  rw [shiftLeft_mod a (by decide), shiftLeft_or _ b.toNat_lt]

theorem toNat_word32 (a b c d : UInt8) :
    (word32 a b c d).toNat = 256 * (256 * (256 * a.toNat + b.toNat) + c.toNat) + d.toNat := by
  show a.toNat <<< 24 % 2 ^ 32 ||| b.toNat <<< 16 % 2 ^ 32 ||| c.toNat <<< 8 % 2 ^ 32 |||
    d.toNat = _
  rw [shiftLeft_mod a (by decide), shiftLeft_mod b (by decide), shiftLeft_mod c (by decide)]
  calc a.toNat <<< 24 ||| b.toNat <<< 16 ||| c.toNat <<< 8 ||| d.toNat
    _ = ((a.toNat <<< 8 ||| b.toNat) <<< 8 ||| c.toNat) <<< 8 ||| d.toNat := by
      simp only [Nat.shiftLeft_or_distrib, ← Nat.shiftLeft_add]
    _ = 256 * (256 * (256 * a.toNat + b.toNat) + c.toNat) + d.toNat := by
      rw [shiftLeft_or _ b.toNat_lt, shiftLeft_or _ c.toNat_lt, shiftLeft_or _ d.toNat_lt]

theorem word16_bytes16 (word : UInt16) : word16 (word >>> 8).toUInt8 word.toUInt8 = word := by
  have bound := word.toNat_lt
  apply UInt16.toNat_inj.mp
  rw [toNat_word16]
  simp only [UInt16.toNat_toUInt8, UInt16.toNat_shiftRight, UInt16.reduceToNat, Nat.reduceMod,
    Nat.shiftRight_eq_div_pow]
  omega

theorem word32_bytes32 (word : UInt32) :
    word32 (word >>> 24).toUInt8 (word >>> 16).toUInt8 (word >>> 8).toUInt8 word.toUInt8 =
      word := by
  have bound := word.toNat_lt
  apply UInt32.toNat_inj.mp
  rw [toNat_word32]
  simp only [UInt32.toNat_toUInt8, UInt32.toNat_shiftRight, UInt32.reduceToNat, Nat.reduceMod,
    Nat.shiftRight_eq_div_pow]
  omega

namespace Header

theorem read?_bytes {header : Header} (four : header.magic.length = 4) (rest : Bytes) :
    read? (header.bytes ++ rest) = some (header, rest) := by
  obtain ⟨magic, version, flags, size, checksum⟩ := header
  match magic, four with
  | [m₀, m₁, m₂, m₃], _ =>
    simp [bytes, bytes16, bytes32, read?, word16_bytes16, word32_bytes32]

theorem read?_append {buffer rest : Bytes} {header : Header}
    (found : read? buffer = some (header, rest)) (more : Bytes) :
    read? (buffer ++ more) = some (header, rest ++ more) := by
  unfold read? at found
  split at found
  · obtain ⟨rfl, rfl⟩ := Prod.mk.inj (Option.some.inj found)
    rfl
  · cases found

def check (header : Header) : Except ProtocolError Bool :=
  if header.magic ≠ Wire.magic then .error (.invalidMagic header.magic)
  else if header.version ≠ protocolVersion then .error (.unsupportedVersion header.version)
  else
    match Frame.checkedOfFlags header.flags with
    | .error error => .error error
    | .ok checked =>
      if maxPayloadSize < header.size then .error (.frameTooLarge header.size maxPayloadSize)
      else .ok checked

def frame (header : Header) (checked : Bool) (payload : Bytes) :
    Except ProtocolError (Option Frame) :=
  if checked && Crc32c.checksum payload != header.checksum then
    .error (.crcMismatch header.checksum (Crc32c.checksum payload))
  else .ok (some ⟨header.version, checked, payload⟩)

end Header

namespace Frame

theorem decode_of_none {buffer : Bytes} (short : Header.read? buffer = none) :
    decode buffer = (.ok none, buffer) := by
  unfold decode
  rw [short]

theorem decode_of_read? {buffer rest : Bytes} {header : Header}
    (read : Header.read? buffer = some (header, rest)) :
    decode buffer = match header.check with
      | .error error => (.error error, buffer)
      | .ok checked =>
        if rest.length < header.size.toNat then (.ok none, buffer)
        else (header.frame checked (rest.take header.size.toNat), rest.drop header.size.toNat) := by
  unfold decode Header.check Header.frame
  rw [read]
  dsimp only
  split
  · rfl
  split
  · rfl
  cases checkedOfFlags header.flags with
  | error error => rfl
  | ok checked =>
    dsimp only
    split
    · rfl
    dsimp only
    split
    · rfl
    split <;> rfl

theorem frame_ne_none (header : Header) (checked : Bool) (payload : Bytes) :
    header.frame checked payload ≠ .ok none := by
  unfold Header.frame
  split <;> simp

theorem decode_waiting {buffer rest : Bytes} (waiting : decode buffer = (.ok none, rest)) :
    rest = buffer := by
  cases read : Header.read? buffer with
  | none =>
    rw [decode_of_none read] at waiting
    cases waiting
    rfl
  | some found =>
    rw [decode_of_read? read] at waiting
    split at waiting
    · cases waiting
    · split at waiting
      · cases waiting
        rfl
      · exact absurd (Prod.mk.inj waiting).1 (frame_ne_none _ _ _)

theorem decode_append {buffer rest : Bytes} {result : Except ProtocolError (Option Frame)}
    (decoded : decode buffer = (result, rest)) (settled : result ≠ .ok none) (more : Bytes) :
    decode (buffer ++ more) = (result, rest ++ more) := by
  cases read : Header.read? buffer with
  | none =>
    rw [decode_of_none read] at decoded
    cases decoded
    exact absurd rfl settled
  | some found =>
    obtain ⟨header, after⟩ := found
    rw [decode_of_read? (Header.read?_append read more)]
    rw [decode_of_read? read] at decoded
    cases checked : header.check with
    | error error =>
      rw [checked] at decoded
      cases decoded
      rfl
    | ok checksummed =>
      simp only [checked] at decoded ⊢
      by_cases short : after.length < header.size.toNat
      · rw [if_pos short] at decoded
        cases decoded
        exact absurd rfl settled
      · have arrived : header.size.toNat ≤ after.length := Nat.le_of_not_lt short
        rw [if_neg short] at decoded
        cases decoded
        rw [if_neg (by rw [List.length_append]; omega), List.take_append_of_le_length arrived,
          List.drop_append_of_le_length arrived]

theorem checkedOfFlags_flags (frame : Frame) :
    checkedOfFlags frame.flags = .ok frame.checked := by
  unfold flags
  cases frame.checked <;> rfl

def header (frame : Frame) : Header where
  magic := magic
  version := frame.version
  flags := frame.flags
  size := UInt32.ofNat frame.payload.length
  checksum := if frame.checked then Crc32c.checksum frame.payload else 0

theorem size_header (frame : Frame) :
    frame.header.size.toNat = frame.payload.length % 2 ^ 32 := UInt32.toNat_ofNat'

theorem frame_header (frame : Frame) :
    frame.header.frame frame.checked frame.payload = .ok (some frame) := by
  obtain ⟨version, checked, payload⟩ := frame
  cases checked <;> simp [header, Header.frame]

section

variable {frame : Frame} (own : frame.version = protocolVersion)
  (fits : frame.payload.length % 2 ^ 32 ≤ maxPayloadSize.toNat)

include fits in
theorem size_header_le : ¬ maxPayloadSize < frame.header.size := by
  rw [UInt32.lt_iff_toNat_lt, size_header]
  exact Nat.not_lt_of_le fits

include own fits in
theorem check_header : frame.header.check = .ok frame.checked := by
  have flags : checkedOfFlags frame.header.flags = .ok frame.checked := checkedOfFlags_flags frame
  have version : ¬ frame.header.version ≠ protocolVersion := fun other => other own
  unfold Header.check
  rw [if_neg (by simp [header]), if_neg version, flags]
  exact if_neg (size_header_le fits)

include fits in
theorem encode_of_fits : frame.encode = .ok (frame.header.bytes ++ frame.payload) :=
  if_neg (size_header_le fits)

include own fits in
theorem decode_written (more : Bytes) :
    decode (frame.header.bytes ++ frame.payload ++ more) =
      (frame.header.frame frame.checked (frame.payload.take (frame.payload.length % 2 ^ 32)),
        frame.payload.drop (frame.payload.length % 2 ^ 32) ++ more) := by
  have whole : frame.payload.length % 2 ^ 32 ≤ frame.payload.length := Nat.mod_le _ _
  have read : Header.read? (frame.header.bytes ++ frame.payload ++ more) =
      some (frame.header, frame.payload ++ more) := by
    rw [List.append_assoc]
    exact Header.read?_bytes rfl _
  rw [decode_of_read? read, check_header own fits, size_header]
  dsimp only
  rw [if_neg (by rw [List.length_append]; omega), List.take_append_of_le_length whole,
    List.drop_append_of_le_length whole]

end

theorem decode_encode {frame : Frame} (own : frame.version = protocolVersion)
    (fits : frame.payload.length ≤ maxPayloadSize.toNat) :
    ∃ bytes, frame.encode = .ok bytes ∧
      ∀ more, decode (bytes ++ more) = (.ok (some frame), more) := by
  have uncut : frame.payload.length % 2 ^ 32 = frame.payload.length :=
    Nat.mod_eq_of_lt (Nat.lt_of_le_of_lt fits (by decide))
  rw [← uncut] at fits
  refine ⟨_, encode_of_fits fits, fun more => ?_⟩
  rw [decode_written own fits, uncut, List.take_length, List.drop_length, frame_header,
    List.nil_append]

end Frame

end CallRouter.Wire
