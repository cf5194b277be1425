import CallRouter.Proofs.Wire.Frame

/-!
Frames that were altered on the way. No step of the checksum forgets what it was given, neither the
remainder nor the byte, so payloads that differ in one byte have different checksums. A frame that
was altered there, or in its checksum, is told from a sound one and taken off the buffer whole.
-/

namespace CallRouter.Wire

namespace Crc32c

theorem and_one_eq_one_iff (remainder : UInt32) :
    remainder &&& 1 = 1 ↔ remainder.toBitVec.getLsbD 0 = true := by
  rw [← UInt32.toNat_inj, UInt32.toNat_and]
  simp [BitVec.getLsbD, Nat.testBit_zero]

theorem getLsbD_shift (remainder : UInt32) (place : Nat) :
    (shift remainder).toBitVec.getLsbD place =
      (remainder.toBitVec.getLsbD (place + 1) ^^
        (remainder.toBitVec.getLsbD 0 && (0x82F63B78#32).getLsbD place)) := by
  unfold shift
  by_cases low : remainder &&& 1 = 1
  · have bit := (and_one_eq_one_iff remainder).mp low
    rw [if_pos low, bit, UInt32.toBitVec_xor, UInt32.toBitVec_shiftRight]
    simp [Nat.add_comm]
  · have bit := Bool.eq_false_iff.mpr (mt (and_one_eq_one_iff remainder).mpr low)
    rw [if_neg low, bit, UInt32.toBitVec_shiftRight]
    simp [Nat.add_comm]

/-- The highest bit after a step is the lowest one before it, as the polynomial has that bit. -/
theorem shift_injective : Function.Injective shift := by
  intro one other same
  have bits (place : Nat) := congrArg (·.toBitVec.getLsbD place) same
  simp only [getLsbD_shift] at bits
  have low : one.toBitVec.getLsbD 0 = other.toBitVec.getLsbD 0 := by
    have highest := bits 31
    rw [BitVec.getLsbD_of_ge _ _ (Nat.le_refl 32), BitVec.getLsbD_of_ge _ _ (Nat.le_refl 32),
      show (0x82F63B78#32).getLsbD 31 = true by decide] at highest
    simpa using highest
  apply UInt32.eq_of_toBitVec_eq
  apply BitVec.eq_of_getLsbD_eq
  intro place _
  cases place with
  | zero => exact low
  | succ place =>
    have next := bits place
    rwa [low, Bool.xor_left_inj] at next

theorem update_injective (byte : UInt8) : Function.Injective (update · byte) := by
  intro one other same
  simp only [update, shift_injective.eq_iff] at same
  exact (UInt32.xor_left_inj _).mp same

theorem update_injective_byte (remainder : UInt32) : Function.Injective (update remainder) := by
  intro one other same
  simp only [update, shift_injective.eq_iff] at same
  exact UInt8.toUInt32_inj.mp ((UInt32.xor_right_inj _).mp same)

theorem foldl_update_injective (bytes : Bytes) : Function.Injective (bytes.foldl update ·) := by
  induction bytes with
  | nil => exact Function.injective_id
  | cons byte bytes ih => exact ih.comp (update_injective byte)

theorem checksum_injective (front back : Bytes) :
    Function.Injective fun byte => checksum (front ++ byte :: back) := by
  intro one other same
  simp only [checksum, List.foldl_append, List.foldl_cons, UInt32.not_inj] at same
  exact update_injective_byte _ (foldl_update_injective back same)

theorem checksum_set_ne {bytes : Bytes} {place : Nat} {byte : UInt8} (inside : place < bytes.length)
    (other : bytes[place] ≠ byte) : checksum (bytes.set place byte) ≠ checksum bytes := by
  have whole : bytes.take place ++ bytes[place] :: bytes.drop (place + 1) = bytes := by
    rw [List.getElem_cons_drop, List.take_append_drop]
  intro same
  refine other (checksum_injective (bytes.take place) (bytes.drop (place + 1)) ?_)
  rw [List.set_eq_take_append_cons_drop, if_pos inside] at same
  dsimp only
  rw [whole, same]

end Crc32c

theorem bytes32_word32 (a b c d : UInt8) : bytes32 (word32 a b c d) = [a, b, c, d] := by
  have := a.toNat_lt
  have := b.toNat_lt
  have := c.toNat_lt
  have := d.toNat_lt
  simp only [bytes32, List.cons.injEq, and_true, ← UInt8.toNat_inj, UInt32.toNat_toUInt8,
    UInt32.toNat_shiftRight, toNat_word32, UInt32.reduceToNat, Nat.reduceMod,
    Nat.shiftRight_eq_div_pow]
  omega

/-- The bytes of a frame with one byte of the payload altered, or with another checksum. -/
inductive Corrupts (written : Bytes) : Bytes → Prop
  | payload {place : Nat} {byte : UInt8} (behind : headerSize ≤ place)
      (inside : place < written.length) (other : written[place] ≠ byte) :
      Corrupts written (written.set place byte)
  | checksum {field : Bytes} (four : field.length = 4)
      (other : (written.drop 12).take 4 ≠ field) :
      Corrupts written (written.take 12 ++ field ++ written.drop headerSize)

namespace Frame

variable {frame : Frame} {altered : Bytes}

theorem length_bytes_header (frame : Frame) : frame.header.bytes.length = headerSize := rfl

theorem exists_of_corrupts (checked : frame.checked = true)
    (corrupts : Corrupts (frame.header.bytes ++ frame.payload) altered) :
    ∃ (checksum : UInt32) (payload : Bytes), payload.length = frame.payload.length ∧
      Crc32c.checksum payload ≠ checksum ∧
      altered = { frame.header with checksum }.bytes ++ payload := by
  have right : frame.header.checksum = Crc32c.checksum frame.payload := if_pos checked
  cases corrupts with
  | @payload place byte behind inside other =>
    obtain ⟨index, rfl⟩ := Nat.exists_eq_add_of_le behind
    rw [List.length_append, length_bytes_header, Nat.add_lt_add_iff_left] at inside
    refine ⟨frame.header.checksum, frame.payload.set index byte, List.length_set, ?_, ?_⟩
    · rw [right]
      have at_index := List.getElem_append_right' frame.header.bytes inside
      simp only [length_bytes_header, Nat.add_comm index] at at_index
      exact Crc32c.checksum_set_ne inside (at_index ▸ other)
    · rw [List.set_append_right _ _ (by simp [length_bytes_header])]
      simp [length_bytes_header]
  | @checksum field four other =>
    match field, four with
    | [a, b, c, d], _ =>
      refine ⟨word32 a b c d, frame.payload, rfl, ?_, ?_⟩
      · intro same
        refine other ?_
        rw [← bytes32_word32, ← same, ← right]
        rfl
      · show _ = frame.header.bytes.take 12 ++ bytes32 (word32 a b c d) ++ frame.payload
        rw [bytes32_word32]
        rfl

theorem check_of_version (other : frame.version ≠ protocolVersion) :
    frame.header.check = .error (.unsupportedVersion frame.version) := by
  have version : frame.header.version ≠ protocolVersion := other
  unfold Header.check
  rw [if_neg (by simp [header]), if_pos version]
  rfl

theorem decode_altered (fits : frame.payload.length ≤ maxPayloadSize.toNat) {checksum : UInt32}
    {payload : Bytes} (length : payload.length = frame.payload.length)
    (wrong : Crc32c.checksum payload ≠ checksum) (checked : frame.checked = true) (more : Bytes) :
    let altered := { frame.header with checksum }.bytes ++ payload
    (frame.version = protocolVersion → decode (altered ++ more) =
      (.error (.crcMismatch checksum (Crc32c.checksum payload)), more)) ∧
    (frame.version ≠ protocolVersion → decode (altered ++ more) =
      (.error (.unsupportedVersion frame.version), altered ++ more)) := by
  intro altered
  have uncut : frame.payload.length % 2 ^ 32 = frame.payload.length :=
    Nat.mod_eq_of_lt (Nat.lt_of_le_of_lt fits (by decide))
  have read : Header.read? (altered ++ more) =
      some ({ frame.header with checksum }, payload ++ more) := by
    rw [List.append_assoc]
    exact Header.read?_bytes rfl _
  have same : { frame.header with checksum }.check = frame.header.check := rfl
  have size : { frame.header with checksum }.size.toNat = payload.length :=
    (size_header frame).trans (uncut.trans length.symm)
  rw [decode_of_read? read, same, size]
  constructor
  · intro own
    rw [check_header own (uncut.trans_le fits), checked]
    simp [Header.frame, wrong]
  · intro other
    rw [check_of_version other]

/--
A frame that is written with a checksum, and then altered in one byte of its payload or in the
checksum. It is answered with both checksums and taken off the buffer, so that what follows it is
read as if it had not been there. A frame of another version fails for its version, and stays.
-/
theorem corruption_is_contained (frame : Frame) (checked : frame.checked = true)
    (fits : frame.payload.length ≤ maxPayloadSize.toNat) :
    ∃ written, frame.encode = .ok written ∧
      ∀ altered, Corrupts written altered → ∀ more,
        (frame.version = protocolVersion →
          ∃ header payload, Header.read? altered = some (header, payload) ∧
            decode (altered ++ more) =
              (.error (.crcMismatch header.checksum (Crc32c.checksum payload)), more) ∧
            decode (decode (altered ++ more)).2 = decode more) ∧
        (frame.version ≠ protocolVersion →
          decode (altered ++ more) =
            (.error (.unsupportedVersion frame.version), altered ++ more)) := by
  have uncut : frame.payload.length % 2 ^ 32 ≤ maxPayloadSize.toNat :=
    (Nat.mod_le _ _).trans fits
  refine ⟨_, encode_of_fits uncut, fun altered corrupts more => ?_⟩
  obtain ⟨checksum, payload, length, wrong, rfl⟩ := exists_of_corrupts checked corrupts
  obtain ⟨mismatch, foreign⟩ := decode_altered fits length wrong checked more
  refine ⟨fun own => ?_, foreign⟩
  refine ⟨_, payload, Header.read?_bytes rfl payload, mismatch own, ?_⟩
  rw [mismatch own]

theorem corruption_is_contained_of_digit :
    let frame : Frame := { payload := [0x5B, 0x31, 0x5D] }
    frame.checked = true ∧ frame.payload.length ≤ maxPayloadSize.toNat ∧
      ∃ written, frame.encode = .ok written ∧ ∀ more,
        decode (written.set 17 0x32 ++ more) = (.error (.crcMismatch (Crc32c.checksum frame.payload)
          (Crc32c.checksum [0x5B, 0x32, 0x5D])), more) := by
  intro frame
  obtain ⟨written, encoded, contained⟩ := corruption_is_contained frame rfl (by decide)
  have bytes : written = frame.header.bytes ++ frame.payload :=
    Except.ok.inj (encoded.symm.trans (encode_of_fits (by decide)))
  subst bytes
  refine ⟨rfl, by decide, _, encoded, fun more => ?_⟩
  have corrupts : Corrupts (frame.header.bytes ++ frame.payload)
      ((frame.header.bytes ++ frame.payload).set 17 0x32) :=
    .payload (by decide) (by decide) (by decide)
  obtain ⟨header, payload, read, mismatch, -⟩ := (contained _ corrupts more).1 rfl
  have found : Header.read? ((frame.header.bytes ++ frame.payload).set 17 0x32) =
      some (frame.header, [0x5B, 0x32, 0x5D]) := by
    show Header.read? (frame.header.bytes ++ [0x5B, 0x32, 0x5D]) = _
    exact Header.read?_bytes rfl _
  obtain ⟨rfl, rfl⟩ := Prod.mk.inj (Option.some.inj (read.symm.trans found))
  exact mismatch

/-- What is wrong with a frame of another version is its version, whatever became of its payload. -/
theorem corruption_hides_behind_version :
    let frame : Frame := { version := 2, payload := [0x5B, 0x31, 0x5D] }
    frame.checked = true ∧ frame.payload.length ≤ maxPayloadSize.toNat ∧
      ∃ written, frame.encode = .ok written ∧ Corrupts written (written.set 17 0x32) ∧
        decode (written.set 17 0x32) =
          (.error (.unsupportedVersion 2), written.set 17 0x32) :=
  ⟨rfl, by decide, _, encode_of_fits (by decide),
    .payload (by decide) (by decide) (by decide), rfl⟩

end Frame

end CallRouter.Wire
