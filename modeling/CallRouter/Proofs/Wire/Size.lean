import CallRouter.Proofs.Message.Size
import CallRouter.Proofs.Wire.Frame
import CallRouter.Proofs.Wire.Line

namespace CallRouter

namespace Wire

theorem length_compact (value : Json) : (utf8 value.compact).length = value.size := by
  rw [Json.size, ← String.utf8ByteSize_ofList]
  rfl

theorem utf8Len_of_fromUTF8? {bytes : Bytes} {text : String}
    (read : String.fromUTF8? ⟨bytes.toArray⟩ = some text) :
    String.utf8Len text.toList = bytes.length := by
  unfold String.fromUTF8? at read
  split at read
  · obtain rfl := Option.some.inj read
    rw [← String.utf8ByteSize_ofList, String.ofList_toList]
    exact List.size_toArray
  · cases read

theorem size_of_rawFields {payload : Bytes} {raw : List Json}
    (read : rawFields payload = .ok raw) :
    (Json.list raw).size ≤
      min (6 * payload.length) (payload.length + 20 * Json.itemFloats raw) := by
  unfold rawFields at read
  split at read
  · cases read
  rename_i text decoded
  rw [← utf8Len_of_fromUTF8? decoded]
  split at read
  · cases read
  · rename_i found
    obtain rfl := Except.ok.inj read
    exact Json.size_of_ofText found
  · cases read

theorem encode_binary (message : Message) :
    Mode.binary.encode message = Frame.encode { payload := utf8 (Json.list message.raw).compact } :=
  rfl

theorem encode_of_size {message : Message} (fits : message.size ≤ maxPayloadSize.toNat) :
    ∃ bytes, Mode.binary.encode message = .ok bytes := by
  rw [Message.size, ← length_compact] at fits
  exact ⟨_, Frame.encode_of_fits ((Nat.mod_le _ _).trans fits)⟩

theorem encode_too_large {message : Message} (large : maxPayloadSize.toNat < message.size)
    (word : message.size < 2 ^ 32) :
    Mode.binary.encode message =
      .error (.frameTooLarge (UInt32.ofNat message.size) maxPayloadSize) := by
  rw [encode_binary, Frame.encode]
  dsimp only
  rw [length_compact, ← Message.size, if_pos]
  rw [UInt32.lt_iff_toNat_lt, UInt32.toNat_ofNat_of_lt' word]
  exact large

end Wire

end CallRouter
