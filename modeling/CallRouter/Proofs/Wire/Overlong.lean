import CallRouter.Proofs.Wire.Frame
import CallRouter.Wire.Runs

namespace CallRouter.Wire.Frame

variable {frame : Frame}

theorem encode_of_misfit (large : maxPayloadSize.toNat < frame.payload.length % 2 ^ 32) :
    frame.encode = .error (.frameTooLarge frame.header.size maxPayloadSize) := by
  refine if_pos ?_
  rw [UInt32.lt_iff_toNat_lt]
  exact large.trans_eq (size_header frame).symm

theorem encode_eq_ok_iff {bytes : Bytes} : frame.encode = .ok bytes ↔
    frame.payload.length % 2 ^ 32 ≤ maxPayloadSize.toNat ∧
      bytes = frame.header.bytes ++ frame.payload := by
  by_cases fits : frame.payload.length % 2 ^ 32 ≤ maxPayloadSize.toNat
  · rw [encode_of_fits fits, Except.ok.injEq]
    exact ⟨fun same => ⟨fits, same.symm⟩, fun written => written.2.symm⟩
  · rw [encode_of_misfit (Nat.lt_of_not_le fits)]
    exact iff_of_false nofun fun written => fits written.1

theorem decode_written_iff (own : frame.version = protocolVersion)
    (fits : frame.payload.length % 2 ^ 32 ≤ maxPayloadSize.toNat) :
    decode (frame.header.bytes ++ frame.payload) = (.ok (some frame), []) ↔
      frame.payload.length ≤ maxPayloadSize.toNat := by
  constructor
  · intro whole
    have read := decode_written own fits []
    rw [List.append_nil, List.append_nil, whole] at read
    have none : frame.payload.drop (frame.payload.length % 2 ^ 32) = [] := (Prod.mk.inj read).2.symm
    exact (List.drop_eq_nil_iff.mp none).trans fits
  · intro short
    obtain ⟨bytes, encoded, decoded⟩ := decode_encode own short
    rw [(encode_eq_ok_iff.mp encoded).2] at decoded
    simpa using decoded []

/--
What is written of a frame, and what is read of that, whatever the length of the payload. The length
is cut to a word of 32 bits. If that is no more than the greatest size, then the frame is written,
and as much of it is read back; what is beyond stays in the buffer. So a frame is read back as it
was if its payload is no longer than it may be, and only then. As long as a payload is shorter than
a word can tell, just those frames are written that are read back.
-/
theorem encoded_frames_are_cut (frame : Frame) (own : frame.version = protocolVersion) :
    let cut := frame.payload.length % 2 ^ 32
    ((∃ bytes, frame.encode = .ok bytes) ↔ cut ≤ maxPayloadSize.toNat) ∧
    (maxPayloadSize.toNat < cut →
      frame.encode = .error (.frameTooLarge (UInt32.ofNat frame.payload.length) maxPayloadSize)) ∧
    (∀ bytes, frame.encode = .ok bytes →
      (∀ more, decode (bytes ++ more) =
        (frame.header.frame frame.checked (frame.payload.take cut),
          frame.payload.drop cut ++ more)) ∧
      (decode bytes = (.ok (some frame), []) ↔ frame.payload.length ≤ maxPayloadSize.toNat)) ∧
    (frame.payload.length < 2 ^ 32 →
      ((∃ bytes, frame.encode = .ok bytes) ↔ frame.payload.length ≤ maxPayloadSize.toNat)) := by
  intro cut
  have written : (∃ bytes, frame.encode = .ok bytes) ↔ cut ≤ maxPayloadSize.toNat := by
    simp only [encode_eq_ok_iff, exists_and_left, exists_eq, and_true, cut]
  refine ⟨written, encode_of_misfit, fun bytes encoded => ?_, fun short => ?_⟩
  · obtain ⟨fits, rfl⟩ := encode_eq_ok_iff.mp encoded
    exact ⟨decode_written own fits, decode_written_iff own fits⟩
  · rw [written, show cut = frame.payload.length from Nat.mod_eq_of_lt short]

theorem encoded_frames_are_cut_of_three_more :
    let frame : Frame := { checked := false, payload := List.replicate (2 ^ 32 + 3) 7 }
    frame.version = protocolVersion ∧
      ∃ bytes, frame.encode = .ok bytes ∧
        decode bytes =
          (.ok (some { checked := false, payload := [7, 7, 7] }), List.replicate (2 ^ 32) 7) := by
  intro frame
  have length : frame.payload.length = 2 ^ 32 + 3 := List.length_replicate
  have front : frame.payload.take 3 = [7, 7, 7] := List.take_replicate
  have rest : frame.payload.drop 3 = List.replicate (2 ^ 32) 7 := List.drop_replicate
  obtain ⟨written, -, decodes, -⟩ := encoded_frames_are_cut frame rfl
  rw [length, show (2 ^ 32 + 3) % 2 ^ 32 = 3 from rfl] at written decodes
  obtain ⟨bytes, encoded⟩ := written.mpr (by decide)
  refine ⟨rfl, bytes, encoded, ?_⟩
  have read := (decodes bytes encoded).1 []
  rw [List.append_nil, List.append_nil, front, rest] at read
  exact read

/-- A payload of 2 ^ 32 zeros is written behind a header that tells of an empty one. -/
theorem overlong_frame_is_encoded :
    let frame : Frame := { checked := false, payload := Runs.bytes [(0, 2 ^ 32)] }
    frame.version = protocolVersion ∧ maxPayloadSize.toNat < frame.payload.length ∧
      ∃ bytes, frame.encode = .ok bytes ∧
        decode bytes = (.ok (some { checked := false, payload := [] }), frame.payload) := by
  intro frame
  have length : frame.payload.length = 2 ^ 32 := (Runs.length_bytes _).trans (by decide)
  have cut : frame.payload.length % 2 ^ 32 = 0 := by rw [length, Nat.mod_self]
  have fits : frame.payload.length % 2 ^ 32 ≤ maxPayloadSize.toNat := cut ▸ Nat.zero_le _
  have long : maxPayloadSize.toNat < frame.payload.length := length ▸ by decide
  refine ⟨rfl, long, _, encode_of_fits fits, ?_⟩
  have read := decode_written rfl fits []
  rw [cut, List.append_nil, List.append_nil, List.take_zero, List.drop_zero] at read
  exact read

end CallRouter.Wire.Frame
