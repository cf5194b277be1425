import CallRouter.Proofs.Dealer.Moves
import CallRouter.Proofs.Message.Views
import CallRouter.Proofs.Registration.Inquiry
import CallRouter.Proofs.Registration.Outline

namespace CallRouter

open Json

namespace Refusal

def size (refusal : Refusal) : Nat := (Json.text refusal.message).size

theorem size_invalidUri (uri : String) : (invalidUri uri).size = 23 + (Json.text uri).size :=
  size_text_append _ _

theorem size_noSuchProcedure (uri : String) :
    (noSuchProcedure uri).size = 19 + (Json.text uri).size :=
  size_text_append _ _

theorem size_procedureAlreadyExists (uri : String) :
    (procedureAlreadyExists uri).size = 26 + (Json.text uri).size :=
  size_text_append _ _

theorem size_noSuchRegistration (id : Nat) :
    (noSuchRegistration id).size = 24 + (Json.ofNat id).size := by
  have whole : (noSuchRegistration id).size = 22 + (Json.text (Text.decimal id)).size :=
    size_text_append _ _
  rw [size_text_decimal] at whole
  omega

theorem size_noSuchCall (request : Nat) :
    (noSuchCall request).size = 16 + (Json.ofNat request).size := by
  have whole : (noSuchCall request).size = 14 + (Json.text (Text.decimal request)).size :=
    size_text_append _ _
  rw [size_text_decimal] at whole
  omega

theorem size_invalidArgument (reason : String) :
    (invalidArgument reason).size = 18 + (Json.text reason).size :=
  size_text_append _ _

theorem size_ofUnknownOption (unknown : UnknownOption) :
    (ofUnknownOption unknown).size = 41 + (Json.text unknown.text).size := by
  have whole : (Json.text unknown.message).size =
      escapedSize ("unknown option value '" ++ unknown.text).toList + 3 := size_text_append _ _
  have front : escapedSize "unknown option value '".toList = 22 := by decide
  rw [String.toList_append, escapedSize_append, front] at whole
  rw [ofUnknownOption, size_invalidArgument, whole, size_text]
  omega

end Refusal

theorem text_of_named {α : Type} {values : List α} {name : α → String} {text : String}
    {unknown : UnknownOption} (refused : named values name text = .error unknown) :
    unknown.text = text := by
  unfold named at refused
  split at refused
  · cases refused
  · obtain rfl := Except.error.inj refused
    rfl

theorem Dict.size_of_choice {α : Type} {values : List α} {name : α → String} {key : String}
    {dict : Dict} {unknown : UnknownOption}
    (refused : dict.choice (named values name) key = .error unknown) :
    (Json.text unknown.text).size ≤ 2 + 2 * (Json.dict dict).size := by
  unfold Dict.choice at refused
  split at refused
  · cases refused
  · cases refused
  · rename_i text found
    have inside := size_of_get? found
    cases chosen : named values name text with
    | ok value => simp [chosen, Except.map] at refused
    | error other =>
      obtain rfl : other = unknown := by simpa [chosen, Except.map] using refused
      rw [text_of_named chosen]
      omega
  · rename_i other _ _ found
    have inside := size_of_get? found
    have escaped := escapedSize_compact other
    obtain rfl := Except.error.inj refused
    rw [size_text]
    dsimp only
    omega

theorem Payload.sizes_args_le (payload : Payload) :
    sizes (payload.args.getD []) ≤ sizes payload.fields := by
  obtain ⟨_ | args, _ | kwargs⟩ := payload
  · exact Nat.le_refl _
  · exact Nat.zero_le _
  · have listed := sizes_le_size_list args
    simp only [Payload.fields, sizes_cons, Option.getD_some]
    omega
  · have listed := sizes_le_size_list args
    simp only [Payload.fields, sizes_cons, Option.getD_some]
    omega

namespace Registration.MetaProcedure

variable {procedure : MetaProcedure} {directory : Directory} {args : List Json} {refusal : Refusal}

theorem size_policyOf {parameters : List Parameter}
    (refused : policyOf parameters args = .error refusal) :
    refusal.size ≤ 64 + 2 * sizes args := by
  have options : (Json.dict ((args[1]? >>= Json.dict?).getD [])).size ≤ 2 + sizes args := by
    cases given : args[1]? >>= Json.dict? with
    | none => exact Nat.le_add_right 2 _
    | some entries =>
      obtain ⟨value, there, dict⟩ := Option.bind_eq_some_iff.mp given
      have inside := size_le_sizes (List.mem_of_getElem? there)
      cases value <;> simp only [Json.dict?, reduceCtorEq, Option.some.injEq] at dict
      subst dict
      exact Nat.le_add_left_of_le inside
  unfold policyOf at refused
  split at refused
  · dsimp only at refused
    split at refused
    · cases refused
    · rename_i unknown unchosen
      obtain rfl := Except.error.inj refused
      have quoted := Dict.size_of_choice unchosen
      rw [Refusal.size_ofUnknownOption]
      omega
  · cases refused

theorem size_named (refused : named directory args = .error refusal) :
    refusal.size ≤ 64 + 2 * sizes args := by
  have id : (Json.ofNat ((args.head? >>= Json.nat?).getD 0)).size ≤ 1 + sizes args := by
    cases given : args.head? >>= Json.nat? with
    | none => exact Nat.le_add_right 1 _
    | some n =>
      obtain ⟨value, there, number⟩ := Option.bind_eq_some_iff.mp given
      have inside := size_le_sizes (List.mem_of_mem_head? there)
      rw [Json.nat?_eq_some_iff.mp number] at inside
      exact Nat.le_add_left_of_le inside
  unfold named at refused
  dsimp only at refused
  split at refused
  · cases refused
  · obtain rfl := Except.error.inj refused
    rw [Refusal.size_noSuchRegistration]
    omega

theorem size_refusal_le (refused : procedure.answer directory args = .error refusal) :
    refusal.size ≤ 96 + 2 * sizes args := by
  rcases refusal_cases refused with rfl | ⟨parameters, unknown⟩ | missing
  · have name : escapedSize procedure.uri.toList ≤ 33 := by cases procedure <;> decide
    have whole : (Json.text (procedure.uri ++ " does not accept these arguments")).size =
      escapedSize procedure.uri.toList + 34 := size_text_append _ _
    rw [Refusal.size_invalidArgument, whole]
    omega
  · exact Nat.le_trans (size_policyOf unknown) (Nat.add_le_add_right (by decide) _)
  · exact Nat.le_trans (size_named missing) (Nat.add_le_add_right (by decide) _)

end Registration.MetaProcedure

namespace Dealer

variable {dealer : Dealer} {peers : Peers} {now : Time} {draw session : Nat} {options : Dict}
  {uri : String} {refusal : Refusal}

theorem size_chosen {α : Type} [Inhabited α] {values : List α} {name : α → String} {key : String}
    (refused : chosen (options.choice (named values name) key) = .error refusal) :
    refusal.size ≤ 43 + 2 * (Json.dict options).size := by
  unfold chosen at refused
  split at refused
  · cases refused
  · rename_i unknown unchosen
    obtain rfl := Except.error.inj refused
    have quoted := Dict.size_of_choice unchosen
    rw [Refusal.size_ofUnknownOption]
    omega

theorem refusal_of_register {directory : Registration.Directory} {pattern : Pattern}
    {invoke : InvocationPolicy}
    (refused : directory.register now session pattern invoke options = .error refusal) :
    refusal = .procedureAlreadyExists pattern.uri := by
  unfold Registration.Directory.register at refused
  split at refused
  · split at refused
    · cases refused
    · exact (Except.error.inj refused).symm
  · cases refused

theorem refusal_of_unregister {directory : Registration.Directory} {id : Nat}
    (refused : directory.unregister id = .error refusal) : refusal = .noSuchRegistration id := by
  unfold Registration.Directory.unregister at refused
  split at refused
  · exact (Except.error.inj refused).symm
  · dsimp only at refused
    split at refused <;> cases refused

theorem size_callOptions (refused : callOptions peers session options = .error refusal) :
    refusal.size ≤ 64 + 2 * (Json.dict options).size := by
  rcases Rpc.bind_eq_error_iff.mp refused with untimed | ⟨timeout, -, done⟩
  · unfold timeoutOf at untimed
    split at untimed
    · cases untimed
    · cases untimed
    · rename_i value _ found
      split at untimed
      · cases untimed
      · cases untimed
      · obtain rfl := Except.error.inj untimed
        have inside := size_of_get? found
        have escaped := escapedSize_compact value
        have whole : (Json.text ("timeout must be a non-negative integer, got " ++
          value.compact)).size = 44 + (Json.text value.compact).size := size_text_append _ _
        rw [Refusal.size_invalidArgument, whole, size_text]
        omega
  · cases done

theorem size_register?_le (refused : dealer.register? now session options uri = .error refusal) :
    refusal.size ≤ 64 + 2 * ((Json.dict options).size + (Json.text uri).size) := by
  unfold register? at refused
  rcases Rpc.bind_eq_error_iff.mp refused with unmatched | ⟨policy, -, rest⟩
  · have quoted := size_chosen unmatched
    omega
  rcases Rpc.bind_eq_error_iff.mp rest with uninvoked | ⟨invoke, -, rest⟩
  · have quoted := size_chosen uninvoked
    omega
  dsimp only at rest
  split at rest
  · obtain rfl : Refusal.invalidUri uri = refusal := Except.error.inj rest
    rw [Refusal.size_invalidUri]
    omega
  rcases Rpc.bind_eq_error_iff.mp rest with taken | ⟨made, -, done⟩
  · obtain rfl := refusal_of_register taken
    rw [Refusal.size_procedureAlreadyExists]
    dsimp only
    omega
  · cases done

theorem size_unregister?_le {registration : Nat}
    (refused : dealer.unregister? session registration = .error refusal) :
    refusal.size = 24 + (Json.ofNat registration).size := by
  have same : refusal = .noSuchRegistration registration := by
    unfold unregister? at refused
    split at refused
    · rcases Rpc.bind_eq_error_iff.mp refused with missing | ⟨removed, -, done⟩
      · exact refusal_of_unregister missing
      · cases done
    · exact (Except.error.inj refused).symm
  rw [same, Refusal.size_noSuchRegistration]

theorem size_call?_le {request : Nat} {payload : Payload}
    (refused : dealer.call? peers now draw session request options uri payload = .error refusal) :
    refusal.size ≤
      96 + 2 * ((Json.dict options).size + (Json.text uri).size + sizes payload.fields) := by
  unfold call? at refused
  dsimp only at refused
  split at refused
  · obtain rfl : Refusal.invalidUri uri = refusal := Except.error.inj refused
    rw [Refusal.size_invalidUri]
    omega
  rcases Rpc.bind_eq_error_iff.mp refused with disagreed | ⟨terms, -, rest⟩
  · have quoted := size_callOptions disagreed
    omega
  split at rest
  · obtain rfl : Refusal.noSuchProcedure uri = refusal := Except.error.inj rest
    rw [Refusal.size_noSuchProcedure]
    omega
  · rcases Rpc.bind_eq_error_iff.mp rest with unanswered | ⟨answer, -, done⟩
    · have quoted := Registration.MetaProcedure.size_refusal_le unanswered
      have given := payload.sizes_args_le
      omega
    · cases done
  · split at rest
    · obtain rfl : Refusal.noSuchProcedure uri = refusal := Except.error.inj rest
      rw [Refusal.size_noSuchProcedure]
      omega
    · cases rest

end Dealer

end CallRouter
