import CallRouter.Proofs.Message.Valid
import CallRouter.Proofs.Registration.Listing
import CallRouter.Registration.Meta

namespace CallRouter.Registration

namespace Parameter

variable {parameters : List Parameter} {args : List Json}

theorem score_pos_iff : 0 < score parameters args ↔ unmet parameters args = 0 := by
  unfold score
  dsimp only
  split
  · omega
  · split <;> omega

theorem score_of_met (met : unmet parameters args = 0) : score parameters args =
    max 1 (1 + 2 * parameters.length - (args.length - parameters.length : Nat)) := by
  unfold score
  rw [met, if_neg (Nat.lt_irrefl 0)]
  dsimp only
  split <;> omega

end Parameter

namespace MetaProcedure

open Directory

variable {directory : Directory} {id : Nat} {uri : String} {policy : MatchPolicy}
  {args : List Json}

section Refusals

variable {procedure : MetaProcedure} {refusal : Refusal}

theorem refusal_cases (refused : procedure.answer directory args = .error refusal) :
    refusal = .invalidArgument (procedure.uri ++ " does not accept these arguments") ∨
      (∃ parameters, policyOf parameters args = .error refusal) ∨
        named directory args = .error refusal := by
  unfold answer at refused
  split at refused
  · exact .inl (Except.error.inj refused).symm
  · cases procedure with
    | list | match_ => cases refused
    | lookup =>
      rcases Rpc.bind_eq_error_iff.mp refused with unknown | ⟨policy, -, done⟩
      · exact .inr (.inl ⟨_, unknown⟩)
      · cases done
    | get | listCallees | countCallees =>
      rcases Rpc.bind_eq_error_iff.mp refused with missing | ⟨entry, -, done⟩
      · exact .inr (.inr missing)
      · cases done

end Refusals

section Ids

variable (valid : isValidId id = true)

include valid

variable {entry : Entry} (held : directory.entry? id = some entry)

include held

end Ids

section Uris

variable (valid : Uri.isValid uri = true)

include valid

end Uris

end MetaProcedure

end CallRouter.Registration
