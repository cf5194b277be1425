import CallRouter.Proofs.Dealer.Attempts
import CallRouter.Proofs.Message.Views

namespace CallRouter

theorem Rpc.exists_request {message : Message} (valid : message.IsValid)
    (asks : message.kind.isRequest = true) {request : Nat} {rest : List Json}
    (fields : message.fields = .ofNat request :: rest) :
    ∃ rpc, ofMessage message = .ok rpc ∧ rpc.kind = message.kind ∧ rpc.request = request := by
  have session : message.kind ∉ [Message.Kind.hello, .welcome, .abort, .goodbye] := by
    intro member
    cases kind : message.kind <;> simp [kind, Message.Kind.isRequest] at member asks
  obtain ⟨rpc, filled, rfl⟩ := exists_message valid session
    fun error => by simp [error, Message.Kind.isRequest] at asks
  have reads : ofMessage rpc.message = .ok rpc := by rw [ofMessage_message, filled]
  have named := request_of_ofMessage reads asks
  have asked : rpc.message.nat? 0 = some request := by simp [Message.nat?, Message.field?, fields]
  exact ⟨rpc, reads, kind_of_ofMessage reads, Option.some.inj (named.symm.trans asked)⟩

namespace Dealer

variable {peers : Peers} {dealer : Dealer} {now : Time} {draw session request : Nat}
  {message : Message}

inductive Resolves (session request : Nat) : Message.Kind → List (Nat × Rpc) → Prop
  | denied (kind : Message.Kind) (refusal : Refusal) :
      Resolves session request kind [(session, denial kind request refusal)]
  | registered (registration : Nat) :
      Resolves session request .register [(session, .registered request registration)]
  | unregistered : Resolves session request .unregister [(session, .unregistered request none)]
  | answered (payload : Payload) :
      Resolves session request .call [(session, .result request [] payload)]
  | invoked {sent : List (Nat × Rpc)} (any : sent ≠ [])
      (invocations : ∀ attempt ∈ sent, attempt.2.kind = .invocation) :
      Resolves session request .call sent
  | canceled {sent : List (Nat × Rpc)}
      (ends : ∀ attempt ∈ sent, attempt.2.kind = .error → ∃ request details error payload,
        attempt.2 = .error .call request details error payload) :
      Resolves session request .cancel sent

theorem resolves_register (options : Dict) (uri : String) :
    Resolves session request .register
      (dealer.registerAttempts now session request options uri) := by
  unfold registerAttempts
  cases dealer.register? now session options uri with
  | error refusal => exact .denied .register refusal
  | ok answer => exact .registered answer.1.id

theorem resolves_unregister (id : Nat) :
    Resolves session request .unregister (dealer.unregisterAttempts session request id) := by
  unfold unregisterAttempts
  cases dealer.unregister? session id with
  | error refusal => exact .denied .unregister refusal
  | ok later => exact .unregistered

theorem resolves_call {options : Dict} {uri : String} {payload : Payload}
    (reads : Rpc.ofMessage message = .ok (.call request options uri payload)) :
    Resolves session request .call
      (dealer.callAttempts peers now draw session request options uri payload) := by
  unfold callAttempts
  cases answered : dealer.call? peers now draw session request options uri payload with
  | error refusal => exact .denied .call refusal
  | ok later =>
    simp only [callMessages]
    cases served_of_call? answered with
    | @answer procedure answer resolved given =>
      simp only [resolved, given]
      exact .answered (.ofArgs [answer])
    | @dispatch terms entry registrations chosen valid agreed resolved choice any =>
      simp only [resolved, agreed, choice]
      have dispatches : Dispatches peers dealer (.handle now draw session message) _ _ :=
        .dispatch reads valid agreed resolved choice any
      refine .invoked ?_ ?_
      · simpa [invocations] using dispatches.fresh.targeted
      · intro attempt member
        obtain ⟨target, -, rfl⟩ := List.mem_map.mp member
        rfl

theorem resolves_cancel (options : Dict) :
    Resolves session request .cancel (dealer.cancelAttempts session request options) := by
  unfold cancelAttempts
  cases options.choice CancelMode.ofName Dict.Key.mode with
  | error unknown => exact .denied .cancel _
  | ok choice =>
    cases located : dealer.cancelable? session request with
    | none => exact .denied .cancel _
    | some found =>
      obtain ⟨number, call⟩ := found
      have opened : call.isCompleted = false := by
        simp only [cancelable?, Option.bind_eq_bind, Option.bind_eq_some_iff] at located
        obtain ⟨place, -, held, -, kept⟩ := located
        split at kept
        · cases kept
        · rename_i opened
          obtain ⟨-, rfl⟩ := Prod.mk.inj (Option.some.inj kept)
          simpa using opened
      refine .canceled ?_
      dsimp only
      split
      · simp
      · rename_i fresh
        intro attempt member failed
        have admits : call.Admits (.cancellation (choice.getD dealer.options.defaultCancelMode)) :=
          ⟨opened, by simpa using fresh⟩
        obtain ⟨details, error, payload, same⟩ := Call.error_of_turn admits member failed
        exact ⟨_, details, error, payload, same⟩

theorem resolves_attempts (valid : message.IsValid) (asks : message.kind.isRequest = true)
    {rest : List Json} (fields : message.fields = .ofNat request :: rest) :
    Resolves session request message.kind
      (dealer.attempts peers (.handle now draw session message)) := by
  obtain ⟨rpc, reads, kind, rfl⟩ := Rpc.exists_request valid asks fields
  rw [← kind] at asks ⊢
  simp only [attempts, reads]
  cases rpc with
  | register request options uri => exact resolves_register options uri
  | unregister request registration => exact resolves_unregister registration
  | call request options uri payload => exact resolves_call reads
  | cancel request options => exact resolves_cancel options
  | _ => cases asks

end Dealer

end CallRouter
