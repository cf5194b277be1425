import CallRouter.Wire.Frame

namespace CallRouter.Wire

abbrev Runs := List (UInt8 × Nat)

namespace Runs

def bytes (runs : Runs) : Bytes := runs.flatMap fun (byte, count) => List.replicate count byte

def ofBytes (bytes : Bytes) : Runs := bytes.map (·, 1)

def size (runs : Runs) : Nat := runs.foldr (fun run size => run.2 + size) 0

def front : Nat → Runs → Bytes
  | _, [] => []
  | count, (byte, repeats) :: runs =>
    List.replicate (min count repeats) byte ++ front (count - repeats) runs

def checksum (runs : Runs) : UInt32 :=
  ~~~ runs.foldl
    (fun remainder (byte, count) => Nat.repeat (Crc32c.update · byte) count remainder) 0xFFFFFFFF

theorem bytes_cons (run : UInt8 × Nat) (runs : Runs) :
    bytes (run :: runs) = List.replicate run.2 run.1 ++ bytes runs :=
  rfl

theorem bytes_append (runs more : Runs) : bytes (runs ++ more) = bytes runs ++ bytes more :=
  List.flatMap_append

theorem bytes_ofBytes (plain : Bytes) : bytes (ofBytes plain) = plain := by
  simp [bytes, ofBytes, List.flatMap_map]

theorem length_bytes (runs : Runs) : runs.bytes.length = runs.size := by
  induction runs with
  | nil => rfl
  | cons run runs ih =>
    rw [bytes_cons, List.length_append, List.length_replicate, ih]
    rfl

theorem front_eq (count : Nat) (runs : Runs) : front count runs = runs.bytes.take count := by
  induction runs generalizing count with
  | nil => simp [front, bytes]
  | cons run runs ih =>
    rw [front, ih, bytes_cons, List.take_append, List.take_replicate, List.length_replicate]

theorem foldl_replicate (byte : UInt8) (count : Nat) (remainder : UInt32) :
    (List.replicate count byte).foldl Crc32c.update remainder =
      Nat.repeat (Crc32c.update · byte) count remainder := by
  induction count with
  | zero => rfl
  | succ count ih => rw [List.replicate_succ', List.foldl_append, ih]; rfl

theorem checksum_eq (runs : Runs) : runs.checksum = Crc32c.checksum runs.bytes := by
  rw [checksum, Crc32c.checksum, bytes, List.foldl_flatMap]
  simp only [foldl_replicate]

end Runs

namespace Frame

def encodeRuns (version : UInt16) (checked : Bool) (payload : Runs) : Except ProtocolError Runs :=
  let size := UInt32.ofNat payload.size
  if maxPayloadSize < size then .error (.frameTooLarge size maxPayloadSize)
  else
    let flags := if checked then 1 else 0
    let checksum := if checked then payload.checksum else 0
    .ok (Runs.ofBytes (Header.bytes ⟨magic, version, flags, size, checksum⟩) ++ payload)

theorem encode_bytes (version : UInt16) (checked : Bool) (payload : Runs) :
    encode ⟨version, checked, payload.bytes⟩ =
      (encodeRuns version checked payload).map Runs.bytes := by
  simp only [encode, encodeRuns, Runs.length_bytes, Runs.checksum_eq, flags]
  split
  · rfl
  · rw [Except.map, Runs.bytes_append, Runs.bytes_ofBytes]

end Frame

end CallRouter.Wire
