import CallRouter.Proofs.Json.Reprint
import CallRouter.Proofs.Message.Views

namespace CallRouter

open Json

def Message.size (message : Message) : Nat := (Json.list message.raw).size

def Message.floats (message : Message) : Nat := itemFloats message.raw

theorem Message.size_eq (message : Message) :
    message.size = 1 + (Json.ofNat message.kind.code).size + 1 + Json.sizes message.fields := by
  rw [size, raw, Json.size_list, Json.sizes_cons]
  omega

theorem size_id_le {id : Nat} (valid : isValidId id = true) : (ofNat id).size ≤ 17 := by
  have below : id ≤ maxId := of_decide_eq_true (Bool.and_eq_true_iff.mp valid).2
  exact size_ofNat_le (by decide) (Nat.lt_of_le_of_lt below (by decide))

theorem Message.Kind.size_code (kind : Kind) :
    (Json.ofNat kind.code).size = if kind.code < 10 then 1 else 2 := by
  cases kind <;> decide

namespace Rpc

def content : Rpc → List Json
  | register _ options procedure => [.dict options, .text procedure]
  | registered .. | unregister .. => []
  | unregistered _ details => (details.map Json.dict).toList
  | call _ options procedure payload => .dict options :: .text procedure :: payload.fields
  | cancel _ options | interrupt _ options => [.dict options]
  | result _ details payload | invocation _ _ details payload => .dict details :: payload.fields
  | yield _ options payload => .dict options :: payload.fields
  | error _ _ details uri payload => .dict details :: .text uri :: payload.fields

variable {rpc : Rpc}

theorem size_message (rpc : Rpc) :
    rpc.message.size = (if rpc.kind = .error then 3 else 4) + sizes rpc.fields := by
  rw [Message.size_eq, Message.Kind.size_code]
  cases rpc <;> rfl

theorem sizes_content_le (rpc : Rpc) : sizes rpc.content + 6 ≤ rpc.message.size := by
  rw [size_message]
  have request := size_ofNat_pos rpc.request
  rcases rpc with _ | _ | _ | ⟨_, _ | _⟩ <;>
    simp only [content, fields, kind, Rpc.request, Option.map, Option.toList, List.cons_append,
      List.nil_append, sizes_cons, sizes_nil, reduceCtorEq, if_true, if_false] at request ⊢ <;>
    omega

theorem isValidId_of_field (valid : rpc.message.IsValid) (index : Nat) (name : String) {id : Nat}
    (always : ∀ variant ∈ (Message.Shape.standard rpc.kind).variants,
      variant[index]? = some ⟨name, .id⟩)
    (there : rpc.fields[index]? = some (.ofNat id)) : isValidId id = true := by
  have accepted := valid.accepts always there
  simpa [Message.FieldType.accepts] using accepted

open Message.Shape in
theorem size_request_le (valid : rpc.message.IsValid) : (ofNat rpc.request).size ≤ 17 := by
  apply size_id_le
  cases rpc with
  | error =>
    exact isValidId_of_field valid 1 "Request"
      (by simp [kind, standard, withPayload, Message.Field.request]) rfl
  | unregistered request details =>
    cases details <;> exact isValidId_of_field valid 0 "Request"
      (by simp [kind, standard, Message.Field.request]) rfl
  | _ =>
    exact isValidId_of_field valid 0 "Request"
      (by simp [kind, standard, withPayload, Message.Field.request]) rfl

open Message.Shape in
theorem size_second_le (valid : rpc.message.IsValid) {id : Nat}
    (there : rpc.fields[1]? = some (.ofNat id)) : (ofNat id).size ≤ 17 := by
  apply size_id_le
  cases rpc with
  | registered | unregister =>
    exact isValidId_of_field valid 1 "Registration"
      (by simp [kind, standard, Message.Field.registration]) there
  | invocation =>
    exact isValidId_of_field valid 1 "Registration"
      (by simp [kind, standard, withPayload, Message.Field.registration]) there
  | error =>
    exact isValidId_of_field valid 1 "Request"
      (by simp [kind, standard, withPayload, Message.Field.request]) there
  | unregistered request details => cases details <;> cases there
  | _ => cases there

theorem size_message_le (valid : rpc.message.IsValid) :
    rpc.message.size ≤ sizes rpc.content + 40 := by
  rw [size_message]
  have request := size_request_le valid
  cases rpc with
  | registered | unregister | invocation =>
    have registration := size_second_le valid rfl
    simp only [content, fields, kind, Rpc.request, List.cons_append, List.nil_append, sizes_cons,
      sizes_nil, reduceCtorEq, if_false] at request ⊢
    omega
  | error type =>
    have code : (ofNat type.code).size ≤ 2 := by
      rw [type.size_code]
      split <;> decide
    simp only [content, fields, kind, Rpc.request, List.cons_append, List.nil_append, sizes_cons,
      if_true] at request ⊢
    omega
  | unregistered _ details =>
    cases details <;>
      simp only [content, fields, kind, Rpc.request, Option.map, Option.toList, sizes_cons,
        sizes_nil, reduceCtorEq, if_false] at request ⊢ <;> omega
  | _ =>
    simp only [content, fields, kind, Rpc.request, List.cons_append, List.nil_append, sizes_cons,
      sizes_nil, reduceCtorEq, if_false] at request ⊢
    omega

end Rpc

end CallRouter
