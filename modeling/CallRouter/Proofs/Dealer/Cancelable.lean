import CallRouter.Proofs.Dealer.Refusals
import CallRouter.Proofs.Dealer.Teardown

namespace CallRouter.Dealer

open Relation

variable {peers : Peers} {operation : Operation} {dealer later : Dealer} {call : Call}

/-- A step takes a call out of the index only with the call itself or with its caller. -/
def Retains (operation : Operation) (dealer later : Dealer) : Prop :=
  ∀ {key : Nat × Nat} {number : Nat} {call : Call}, dealer.cancelable.find? key = some number →
    later.calls[number]? = some call → call.isCompleted = false →
    operation ≠ .closeSession key.1 → later.cancelable.find? key = some number

theorem retains_move (move : Move peers operation dealer later) :
    Retains operation dealer later := by
  intro key number call located found opened apart
  cases move with
  | aside aside =>
    rw [aside.cancelable]
    exact located
  | @turn turned holder event held cause =>
    simp only [turn]
    split
    · rename_i ended
      refine find?_forgetting.mpr ⟨located, fun _ => ?_⟩
      rintro rfl
      rw [getElem?_turn held, if_pos rfl] at found
      obtain rfl := Option.some.inj found
      simp [opened] at ended
    · exact located
  | @retire session closing =>
    refine (Keyed.find?_filter ..).mpr ⟨located, ?_⟩
    have foreign : key.1 ≠ session := by
      rintro rfl
      exact apart closing
    simpa using foreign

theorem retains_moves (moves : Moves peers operation dealer later) :
    Retains operation dealer later := by
  induction moves with
  | refl => exact fun located _ _ _ => located
  | tail _ move ih =>
    intro key number call located found opened apart
    obtain ⟨before, there, still, -⟩ := opened_of_moves (.single move) found opened
    exact retains_move move (ih located there still apart) found opened apart

theorem less_of_moves (moves : Moves peers operation dealer later) {key : Nat × Nat} {number : Nat}
    (located : later.cancelable.find? key = some number) :
    dealer.cancelable.find? key = some number := by
  induction moves with
  | refl => exact located
  | tail _ move ih =>
    apply ih
    cases move with
    | aside aside => exact aside.cancelable ▸ located
    | turn found cause =>
      simp only [turn] at located
      split at located
      · exact (find?_forgetting.mp located).1
      · exact located
    | retire closing => exact ((Keyed.find?_filter ..).mp located).1

def RequestsFresh (dealer later : Dealer) : Prop :=
  ∀ call ∈ later.calls.drop dealer.calls.length, ∀ other ∈ dealer.calls,
    other.isCompleted = false → (other.caller, other.request) ≠ (call.caller, call.request)

/-- No caller uses the request of one of its open calls for another call. -/
def RunsApart (peers : Peers) (options : Options) (operations : List Operation) : Prop :=
  ∀ count < operations.length, RequestsFresh (run peers options (operations.take count))
    (run peers options (operations.take (count + 1)))

instance (peers : Peers) (options : Options) (operations : List Operation) :
    Decidable (RunsApart peers options operations) :=
  inferInstanceAs (Decidable (∀ count < operations.length,
    ∀ call ∈ (run peers options (operations.take (count + 1))).calls.drop
        (run peers options (operations.take count)).calls.length,
      ∀ other ∈ (run peers options (operations.take count)).calls,
        other.isCompleted = false → (other.caller, other.request) ≠ (call.caller, call.request)))

def CanCancel (peers : Peers) (session : Nat) : Prop :=
  peers.supports session .caller Feature.callCanceling = true

theorem canCancel_step (linked : dealer.Linked)
    (announced : ∀ {key : Nat × Nat} {number : Nat},
      dealer.cancelable.find? key = some number → CanCancel peers key.1)
    {key : Nat × Nat} {number : Nat}
    (located : (dealer.step peers operation).cancelable.find? key = some number) :
    CanCancel peers key.1 := by
  rcases step_cases linked peers operation with moves | ⟨call, dispatches⟩
  · exact announced (less_of_moves moves located)
  · rw [dispatches.cancelable] at located
    split at located
    · rename_i supports
      rw [Keyed.find?_insert] at located
      split at located
      · rename_i same
        exact same ▸ supports
      · exact announced located
    · exact announced located

theorem canCancel_run (peers : Peers) (options : Options) (operations : List Operation)
    {key : Nat × Nat} {number : Nat}
    (located : (run peers options operations).cancelable.find? key = some number) :
    CanCancel peers key.1 := by
  induction operations using List.reverseRecOn generalizing key number with
  | nil => cases located
  | append_singleton operations operation ih =>
    rw [run_concat] at located
    exact canCancel_step (linked_run peers options operations) ih located

theorem retains_step (linked : dealer.Linked) {key : Nat × Nat} {number : Nat}
    (located : dealer.cancelable.find? key = some number)
    (found : (dealer.step peers operation).calls[number]? = some call)
    (opened : call.isCompleted = false) (apart : operation ≠ .closeSession key.1) :
    (dealer.step peers operation).cancelable.find? key = some number ∨
      ∃ new, (dealer.step peers operation).calls = dealer.calls ++ [new] ∧
        key = (new.caller, new.request) := by
  rcases step_cases linked peers operation with moves | ⟨new, dispatches⟩
  · exact .inl (retains_moves moves located found opened apart)
  · by_cases same : (new.caller, new.request) = key
    · exact .inr ⟨new, dispatches.calls, same.symm⟩
    · left
      rw [dispatches.cancelable]
      split
      · rw [Keyed.find?_insert, if_neg same, located]
      · exact located

structure Indexed (peers : Peers) (dealer : Dealer) : Prop extends Awaiting dealer where
  indexed : ∀ {number : Nat} {call : Call}, dealer.calls[number]? = some call →
    call.isCompleted = false → CanCancel peers call.caller →
      dealer.cancelable.find? (call.caller, call.request) = some number

theorem indexed_initial (options : Options) : Indexed peers { options } where
  toAwaiting := awaiting_initial options
  indexed := by simp

theorem indexed_dispatch (indexed : Indexed peers dealer) (awaiting : later.Awaiting)
    (apart : RequestsFresh dealer later)
    (dispatches : Dispatches peers dealer operation call later) : Indexed peers later where
  toAwaiting := awaiting
  indexed := by
    intro number other found opened able
    rw [dispatches.cancelable]
    rcases dispatches.cases found with before | ⟨rfl, rfl⟩
    · have located := indexed.indexed before opened able
      have distinct := apart call (by simp [dispatches.calls]) other
        (List.mem_of_getElem? before) opened
      split
      · rw [Keyed.find?_insert, if_neg distinct.symm, located]
      · exact located
    · have supports : peers.supports other.caller .caller Feature.callCanceling = true := able
      rw [if_pos supports, Keyed.find?_insert_self]

theorem indexed_step (indexed : Indexed peers dealer)
    (fresh : DrawsFresh dealer (dealer.step peers operation))
    (apart : RequestsFresh dealer (dealer.step peers operation)) :
    Indexed peers (dealer.step peers operation) := by
  have awaiting := awaiting_step indexed.toAwaiting fresh
  rcases step_cases indexed.toLinked peers operation with moves | ⟨call, dispatches⟩
  · refine { toAwaiting := awaiting, indexed := fun {number call} found opened able => ?_ }
    obtain ⟨before, there, still, same⟩ := opened_of_moves moves found opened
    have caller : call.caller = before.caller := by simpa using congrArg Call.caller same
    have request : call.request = before.request := by simpa using congrArg Call.request same
    rw [caller, request]
    refine retains_moves moves (indexed.indexed there still (caller ▸ able)) found opened ?_
    -- Nothing is left open of a caller that closes.
    rintro rfl
    have gone := indexed.toAwaiting.gone (closes_closeSession dealer before.caller)
    have done := gone.made call (List.mem_of_getElem? found) caller
    rw [done] at opened
    cases opened
  · exact indexed_dispatch indexed awaiting apart dispatches

theorem indexed_run (peers : Peers) (options : Options) (operations : List Operation)
    (fresh : RunsFresh peers options operations) (apart : RunsApart peers options operations) :
    Indexed peers (run peers options operations) := by
  induction operations using List.reverseRecOn with
  | nil => exact indexed_initial options
  | append_singleton operations operation ih =>
    obtain ⟨earlier, drawn⟩ := runsFresh_concat fresh
    obtain ⟨before, distinct⟩ := steps_concat RequestsFresh apart
    rw [run_concat]
    exact indexed_step (ih earlier before) drawn distinct

def DeniesCall (session request : Nat) (dealer later : Dealer) : Prop :=
  ∃ sent about, .send session sent about ∈ later.effects.drop dealer.effects.length ∧
    sent.kind = .error ∧ sent.nat? 0 = some Message.Kind.cancel.code ∧
    sent.nat? 1 = some request ∧ sent.text? 3 = some ErrorUri.noSuchCall.uri

section Cancel

variable {now : Time} {draw session request : Nat} {message : Message} {options : Dict}
  {choice : Option CancelMode}

theorem deniesCall_iff (linked : dealer.Linked) (valid : message.IsValid)
    (reads : Rpc.ofMessage message = .ok (.cancel request options))
    (chosen : options.choice CancelMode.ofName Dict.Key.mode = .ok choice) :
    DeniesCall session request dealer
        (dealer.step peers (.handle now draw session message)) ↔
      dealer.cancelable.find? (session, request) = none := by
  have kind : message.kind = .cancel := (Rpc.kind_of_ofMessage reads).symm
  have isRequest : message.kind.isRequest = true := by rw [kind]; rfl
  have answer : dealer.step peers (.handle now draw session message) =
      dealer.cancel session request options := by
    simp only [step, handle, reads]
  rw [answer]
  cases located : dealer.cancelable.find? (session, request) with
  | none =>
    let denial : Rpc := .error .cancel request [] ErrorUri.noSuchCall.uri
      (.ofArgs [.text (Refusal.noSuchCall request).message])
    have sendable : denial.isSendable = true :=
      Rpc.isSendable_error (Rpc.isValidId_of_request valid reads isRequest) (by decide +kernel) _ _ _
    have sent : (dealer.cancel session request options).effects =
        dealer.effects ++ outgoing none session denial := by
      rw [cancel_of_absent chosen located, refuse, send_eq]
      rfl
    refine iff_of_true ⟨denial.message, none, ?_, rfl, Rpc.fields_of_error _ _ _ _ _⟩ rfl
    rw [sent, List.drop_left, outgoing_eq, if_pos sendable]
    exact List.mem_singleton_self _
  | some number =>
    refine iff_of_false ?_ (by simp)
    rintro ⟨sent, about, member, failed, type, -⟩
    have turns : ReflTransGen (Turns peers (.handle now draw session message)) dealer _ :=
      cancel_turns linked reads chosen located
    obtain ⟨new, grown, silent⟩ := turns_grant isRequest turns
    rw [grown, List.drop_left] at member
    exact silent session sent about member failed (kind ▸ type)

end Cancel

/--
The index of calls that can be canceled leads to open calls, each by its own caller and request, and a
call stays in it until it ends, its caller closes, or the caller uses its request again. As long as
that is not done with an open call, a CANCEL is denied exactly if its sender has no open call with the
request that could be canceled.
-/
theorem cancel_finds_open_calls (peers : Peers) (options : Options)
    (operations : List Operation) :
    let dealer := run peers options operations
    (∀ key number, dealer.cancelable.find? key = some number →
      ∃ call, dealer.calls[number]? = some call ∧ key = (call.caller, call.request) ∧
        call.isCompleted = false) ∧
    (∀ operation key number call, dealer.cancelable.find? key = some number →
      (dealer.step peers operation).calls[number]? = some call → call.isCompleted = false →
      operation ≠ .closeSession key.1 →
        (dealer.step peers operation).cancelable.find? key = some number ∨
          ∃ new, (dealer.step peers operation).calls = dealer.calls ++ [new] ∧
            key = (new.caller, new.request)) ∧
    (RunsFresh peers options operations → RunsApart peers options operations →
      (∀ key number, dealer.cancelable.find? key = some number ↔
        ∃ call, dealer.calls[number]? = some call ∧ key = (call.caller, call.request) ∧
          call.isCompleted = false ∧ CanCancel peers call.caller) ∧
      ∀ now draw session message request (options : Dict) choice, message.IsValid →
        Rpc.ofMessage message = .ok (.cancel request options) →
        options.choice CancelMode.ofName Dict.Key.mode = .ok choice →
          (DeniesCall session request dealer
              (dealer.step peers (.handle now draw session message)) ↔
            ¬ ∃ (number : Nat) (call : Call), dealer.calls[number]? = some call ∧
              call.caller = session ∧ call.request = request ∧ call.isCompleted = false ∧
              CanCancel peers session)) := by
  intro dealer
  have linked := linked_run peers options operations
  refine ⟨fun _ _ => linked.cancelable, fun _ _ _ _ => retains_step linked, fun fresh apart => ?_⟩
  have indexed := indexed_run peers options operations fresh apart
  have complete : ∀ key number, dealer.cancelable.find? key = some number ↔
      ∃ call, dealer.calls[number]? = some call ∧ key = (call.caller, call.request) ∧
        call.isCompleted = false ∧ CanCancel peers call.caller := by
    intro key number
    constructor
    · intro located
      obtain ⟨call, found, same, opened⟩ := linked.cancelable located
      have able := canCancel_run peers options operations located
      exact ⟨call, found, same, opened, by rwa [same] at able⟩
    · rintro ⟨call, found, rfl, opened, able⟩
      exact indexed.indexed found opened able
  refine ⟨complete, ?_⟩
  intro now draw session message request options choice valid reads chosen
  rw [deniesCall_iff linked valid reads chosen, Option.eq_none_iff_forall_ne_some, not_exists]
  refine forall_congr' fun number => not_congr ((complete _ _).trans ⟨?_, ?_⟩)
  · rintro ⟨call, found, same, opened, able⟩
    obtain ⟨rfl, rfl⟩ := Prod.mk.inj same
    exact ⟨call, found, rfl, rfl, opened, able⟩
  · rintro ⟨call, found, rfl, rfl, opened, able⟩
    exact ⟨call, found, rfl, opened, able⟩

theorem cancel_finds_open_calls_of_reuse :
    let registering : Operation := .handle 0 0 1 ⟨.register, [.ofNat 1, .dict [], .text "sum"]⟩
    let calling : Operation := .handle 0 0 2 ⟨.call, [.ofNat 1, .dict [], .text "sum"]⟩
    let answering : Operation := .handle 0 0 1 ⟨.yield, [.ofNat 1, .dict []]⟩
    let canceling (request : Nat) : Message := ⟨.cancel, [.ofNat request, .dict []]⟩
    let twice := run obliging {} [registering, calling, calling]
    let again := run obliging {} [registering, calling, answering, calling]
    (twice.step obliging answering).cancelable.find? (2, 1) = some 1 ∧
      RunsFresh obliging {} [registering, calling, answering, calling] ∧
      RunsApart obliging {} [registering, calling, answering, calling] ∧
      (canceling 7).IsValid ∧
      DeniesCall 2 7 again (again.step obliging (.handle 0 0 2 (canceling 7))) ∧
      ¬ DeniesCall 2 1 again (again.step obliging (.handle 0 0 2 (canceling 1))) := by
  intro registering calling answering canceling twice again
  have fresh : RunsFresh obliging {} [registering, calling, answering, calling] := by
    decide +kernel
  have apart : RunsApart obliging {} [registering, calling, answering, calling] := by
    decide +kernel
  obtain ⟨-, retained, -⟩ := cancel_finds_open_calls obliging {} [registering, calling, calling]
  obtain ⟨-, -, complete⟩ :=
    cancel_finds_open_calls obliging {} [registering, calling, answering, calling]
  obtain ⟨found, denied⟩ := complete fresh apart
  let target : Call.Target :=
    { registration := 2, callee := 1, pattern := ⟨.exact, "sum"⟩, invocation := 2
      progressive := false }
  let call : Call :=
    { caller := 2, request := 1, procedure := "sum", options := {}, started := 0
      targets := [target] }
  have newer : (twice.step obliging answering).calls[1]? = some call := by decide +kernel
  have stays : (twice.step obliging answering).cancelable.find? (2, 1) = some 1 := by
    rcases retained answering (2, 1) 1 call (by decide +kernel) newer rfl (by simp [answering]) with
      located | ⟨new, grown, -⟩
    · exact located
    · have same : (twice.step obliging answering).calls.length = twice.calls.length := by
        decide +kernel
      have more : (twice.step obliging answering).calls.length = twice.calls.length + 1 := by
        rw [grown, List.length_append, List.length_singleton]
      omega
  have requests : ∀ call ∈ again.calls, call.request ≠ 7 := by decide +kernel
  refine ⟨stays, fresh, apart, rfl, (denied 0 0 2 (canceling 7) 7 [] none rfl rfl rfl).mpr ?_, ?_⟩
  · rintro ⟨number, call, there, -, same, -⟩
    exact requests call (List.mem_of_getElem? there) same
  · rw [denied 0 0 2 (canceling 1) 1 [] none rfl rfl rfl, not_not]
    exact ⟨1, call, by decide +kernel, rfl, rfl, rfl, rfl⟩

end CallRouter.Dealer
