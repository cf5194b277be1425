import CallRouter.Proofs.Dealer.Awaiting

namespace CallRouter

theorem ErrorUri.isValid_uri (error : ErrorUri) : Uri.isValid error.uri = true := by
  cases error <;> decide

def Call.Event.IsNamed : Call.Event → Prop
  | .failure _ _ error _ => Uri.isValid error = true
  | _ => True

theorem Call.Closing.isSendable {call : Call} {event : Call.Event} {last : Rpc}
    (closing : call.Closing event last) (request : isValidId call.request = true)
    (named : event.IsNamed) : last.isSendable = true := by
  cases closing with
  | result payload => exact Rpc.isSendable_result request [] payload
  | failure same =>
    subst same
    exact Rpc.isSendable_error request named .call _ _
  | ended reason error => exact Rpc.isSendable_error request error.isValid_uri .call _ _

namespace Dealer

variable {peers : Peers} {operation : Operation} {dealer later : Dealer} {call : Call}

structure Kept (skipped lost : Nat → Prop) (dealer : Dealer) : Prop extends Awaiting dealer where
  valid : ∀ call ∈ dealer.calls, isValidId call.request = true
  skip : ∀ {number : Nat} {call : Call}, dealer.calls[number]? = some call →
    call.isCompleted = true → call.cancelMode = some .skip → skipped number
  answered : ∀ {number : Nat} {call : Call}, dealer.calls[number]? = some call →
    call.isCompleted = true → lost number ∨ ∃ progress last, call.Final last ∧
      dealer.replies number = transcript call progress (some last)

theorem kept_initial (skipped lost : Nat → Prop) (options : Options) :
    Kept skipped lost { options } where
  toAwaiting := awaiting_initial options
  valid := by simp
  skip := by simp
  answered := by simp

theorem Kept.imp {skipped skipped' lost lost' : Nat → Prop} (kept : Kept skipped lost dealer)
    (skips : ∀ {number : Nat} {call : Call}, dealer.calls[number]? = some call →
      call.isCompleted = true → skipped number → skipped' number)
    (loses : ∀ {number : Nat} {call : Call}, dealer.calls[number]? = some call →
      call.isCompleted = true → lost number → lost' number) : Kept skipped' lost' dealer where
  toAwaiting := kept.toAwaiting
  valid := kept.valid
  skip := fun found done mode => skips found done (kept.skip found done mode)
  answered := fun found done => (kept.answered found done).imp_left (loses found done)

theorem Cause.named {number index : Nat} {details : Dict} {error : String} {payload : Payload}
    (cause : Cause peers dealer number call operation (.failure index details error payload))
    (valid : operation.IsValid) : Uri.isValid error = true := by
  cases cause with
  | failure tracks reads => exact Rpc.isValid_of_error valid reads

section Turn

variable {skipped lost : Nat → Prop} {number : Nat} {event : Call.Event}

theorem skip_turn (kept : Kept skipped lost dealer) (found : dealer.calls[number]? = some call)
    (skips : event = .cancellation .skip → skipped number)
    (mode : (call.turn event).call.cancelMode = some .skip) : skipped number := by
  rcases Call.cancelMode_turn call event with same | ⟨chosen, rfl, set⟩
  · rw [same] at mode
    cases done : call.isCompleted with
    | true => exact kept.skip found done mode
    | false =>
      -- A call that is open has not been skipped.
      have sound := kept.sound call (List.mem_of_getElem? found)
      cases state : call.state with
      | pending => simp [(sound.pending state).1] at mode
      | canceling => simp [(sound.canceling state).1] at mode
      | completed => simp [Call.isCompleted, state] at done
  · obtain rfl : chosen = .skip := Option.some.inj (set.symm.trans mode)
    exact skips rfl

theorem isSendable_closing (cause : Cause peers dealer number call operation event)
    (valid : operation.IsValid) (request : isValidId call.request = true) {last : Rpc}
    (closing : call.Closing event last) : last.isSendable = true := by
  refine closing.isSendable request ?_
  cases event with
  | failure index details error payload => exact cause.named valid
  | _ => trivial

theorem answered_turn (kept : Kept skipped lost dealer)
    (found : dealer.calls[number]? = some call)
    (cause : Cause peers dealer number call operation event) (valid : operation.IsValid)
    (loses : event = .abandonment → lost number)
    (ended : (call.turn event).call.isCompleted = true) :
    lost number ∨ ∃ progress last, (call.turn event).call.Final last ∧
      dealer.replies number ++ posted (call.turn event).replies =
        transcript (call.turn event).call progress (some last) := by
  have hears := Call.turn_hears cause.admits
  generalize (call.turn event).replies = new at hears
  simp only [transcript_turn]
  cases hears with
  | silence unchanged =>
    rcases kept.answered found (unchanged.trans ended) with gone | ⟨progress, last, final, replies⟩
    · exact .inl gone
    · exact .inr ⟨progress, last, final_turn final, by simp [posted, replies]⟩
  | abandonment gone => exact .inl (loses gone)
  | progress payload opened agreed => simp [ended] at opened
  | closing last closing opened _ =>
    obtain ⟨progress, before, heard, replies⟩ := kept.heard found
    have unanswered : before = none := by
      by_contra closed
      simp [heard.ended closed] at opened
    subst unanswered
    have request := kept.valid call (List.mem_of_getElem? found)
    have sendable := isSendable_closing cause valid request closing
    refine .inr ⟨progress, last, final_turn closing.final, ?_⟩
    simp [posted, sendable, replies, transcript]

theorem kept_turn (kept : Kept skipped lost dealer) (found : dealer.calls[number]? = some call)
    (cause : Cause peers dealer number call operation event) (valid : operation.IsValid)
    (skips : event = .cancellation .skip → skipped number)
    (loses : event = .abandonment → lost number) :
    Kept skipped lost (dealer.turn number call event) where
  toAwaiting := awaiting_move kept.toAwaiting (.turn found cause)
  valid := by
    intro other member
    rcases List.mem_or_eq_of_mem_set member with before | rfl
    · exact kept.valid other before
    · rw [Call.request_turn]
      exact kept.valid call (List.mem_of_getElem? found)
  skip := by
    intro other holder held done mode
    rw [getElem?_turn found] at held
    by_cases here : number = other
    · subst here
      obtain rfl : (call.turn event).call = holder := by simpa using held
      exact skip_turn kept found skips mode
    · rw [if_neg here] at held
      exact kept.skip held done mode
  answered := by
    intro other holder held done
    rw [replies_turn]
    rw [getElem?_turn found] at held
    by_cases here : number = other
    · subst here
      obtain rfl : (call.turn event).call = holder := by simpa using held
      rw [if_pos rfl]
      exact answered_turn kept found cause valid loses done
    · rw [if_neg here] at held
      rw [if_neg here, List.append_nil]
      exact kept.answered held done

end Turn

def IsSkip (default : CancelMode) (call : Call) (operation : Operation) : Prop :=
  ∃ now draw message options choice, operation = .handle now draw call.caller message ∧
    Rpc.ofMessage message = .ok (.cancel call.request options) ∧
    options.choice CancelMode.ofName Dict.Key.mode = .ok choice ∧ choice.getD default = .skip

def IsFarewell (call : Call) (operation : Operation) : Prop :=
  operation = .closeSession call.caller

def Suffers (dealer : Dealer) (number : Nat) (culprit : Call → Prop) : Prop :=
  ∃ call, dealer.calls[number]? = some call ∧ call.isCompleted = false ∧ culprit call

theorem Suffers.of_moves {culprit : Call → Prop} (moves : Moves peers operation dealer later)
    (about : ∀ {call before : Call}, call.origin = before.origin → culprit call → culprit before)
    {number : Nat} (suffers : later.Suffers number culprit) : dealer.Suffers number culprit := by
  obtain ⟨call, found, opened, blamed⟩ := suffers
  obtain ⟨before, there, still, same⟩ := opened_of_moves moves found opened
  exact ⟨before, there, still, about same blamed⟩

theorem isSkip_of_origin {default : CancelMode} {before : Call} (same : call.origin = before.origin)
    (skip : IsSkip default call operation) : IsSkip default before operation := by
  have caller : call.caller = before.caller := by simpa using congrArg Call.caller same
  have request : call.request = before.request := by simpa using congrArg Call.request same
  rwa [IsSkip, ← caller, ← request]

theorem isFarewell_of_origin {before : Call} (same : call.origin = before.origin)
    (farewell : IsFarewell call operation) : IsFarewell before operation := by
  have caller : call.caller = before.caller := by simpa using congrArg Call.caller same
  rwa [IsFarewell, ← caller]

theorem Cause.isSkip {number : Nat}
    (cause : Cause peers dealer number call operation (.cancellation .skip)) :
    IsSkip dealer.options.defaultCancelMode call operation := by
  generalize same : Call.Event.cancellation .skip = event at cause
  cases cause with
  | @cancellation now draw message options choice reads chosen opened pending =>
    exact ⟨now, draw, message, options, choice, rfl, reads, chosen,
      (Call.Event.cancellation.inj same).symm⟩
  | _ => cases same

theorem Cause.isFarewell {number : Nat}
    (cause : Cause peers dealer number call operation .abandonment) :
    IsFarewell call operation := by
  cases cause with
  | abandonment opened => rfl

theorem Cause.opened {number : Nat} {event : Call.Event}
    (cause : Cause peers dealer number call operation event)
    (final : event = .cancellation .skip ∨ event = .abandonment) : call.isCompleted = false := by
  have admits := cause.admits
  rcases final with rfl | rfl
  · exact admits.1
  · exact admits

theorem kept_moves {skipped lost : Nat → Prop} (kept : Kept skipped lost dealer)
    (valid : operation.IsValid) (moves : Moves peers operation dealer later) :
    Kept
      (fun number => skipped number ∨
        dealer.Suffers number (IsSkip dealer.options.defaultCancelMode · operation))
      (fun number => lost number ∨ dealer.Suffers number (IsFarewell · operation)) later := by
  -- A turn may come late in the step, but the call that it ends was open when the step began.
  induction moves with
  | refl => exact kept.imp (fun _ _ => .inl) (fun _ _ => .inl)
  | @tail middle later moves move ih =>
    have awaiting := awaiting_move ih.toAwaiting move
    cases move with
    | aside aside =>
      exact
        { toAwaiting := awaiting
          valid := aside.calls ▸ ih.valid
          skip := fun found => ih.skip (aside.calls ▸ found)
          answered := fun found done => by
            rw [replies_aside aside]
            exact ih.answered (aside.calls ▸ found) done }
    | turn found cause =>
      refine kept_turn ih found cause valid (fun same => .inr ?_) (fun same => .inr ?_)
      · have opened := cause.opened (.inl same)
        subst same
        have skip := cause.isSkip
        rw [options_moves moves] at skip
        exact Suffers.of_moves moves isSkip_of_origin ⟨_, found, opened, skip⟩
      · have opened := cause.opened (.inr same)
        subst same
        exact Suffers.of_moves moves isFarewell_of_origin ⟨_, found, opened, cause.isFarewell⟩
    | retire closing =>
      exact
        { toAwaiting := awaiting
          valid := ih.valid
          skip := ih.skip
          answered := ih.answered }

theorem kept_dispatch {skipped lost : Nat → Prop} (kept : Kept skipped lost dealer)
    (valid : operation.IsValid) (fresh : DrawsFresh dealer later)
    (dispatches : Dispatches peers dealer operation call later) : Kept skipped lost later := by
  have opened := dispatches.fresh.opened
  exact
    { toAwaiting := awaiting_dispatch kept.toAwaiting fresh dispatches
      valid := by
        intro other member
        rw [dispatches.calls, List.mem_append, List.mem_singleton] at member
        rcases member with before | rfl
        · exact kept.valid other before
        · obtain ⟨_, _, _, _, _, rfl, reads, _⟩ := dispatches.request
          exact Rpc.isValidId_of_call valid reads
      skip := by
        intro number other found done mode
        rcases dispatches.cases found with before | ⟨rfl, rfl⟩
        · exact kept.skip before done mode
        · simp [opened] at done
      answered := by
        intro number other found done
        rw [replies_dispatch dispatches]
        rcases dispatches.cases found with before | ⟨rfl, rfl⟩
        · exact kept.answered before done
        · simp [opened] at done }

/-- A step of a run ended a call, and a culprit was at work in it. -/
def EndedBy (peers : Peers) (options : Options) (operations : List Operation) (number : Nat)
    (culprit : Call → Operation → Prop) : Prop :=
  ∃ before operation after, operations = before ++ operation :: after ∧
    (run peers options before).Suffers number (culprit · operation) ∧
    ∃ call, (run peers options (before ++ [operation])).calls[number]? = some call ∧
      call.isCompleted = true

theorem endedBy_concat {options : Options} {operations : List Operation} {number : Nat}
    {culprit : Call → Operation → Prop} (ended : EndedBy peers options operations number culprit)
    (operation : Operation) :
    EndedBy peers options (operations ++ [operation]) number culprit := by
  obtain ⟨before, step, after, rfl, suffers⟩ := ended
  exact ⟨before, step, after ++ [operation], by simp, suffers⟩

theorem kept_run (peers : Peers) (options : Options) (operations : List Operation)
    (valid : ∀ operation ∈ operations, operation.IsValid)
    (fresh : RunsFresh peers options operations) :
    Kept (EndedBy peers options operations · (IsSkip options.defaultCancelMode))
      (EndedBy peers options operations · IsFarewell) (run peers options operations) := by
  induction operations using List.reverseRecOn with
  | nil => exact kept_initial _ _ options
  | append_singleton operations operation ih =>
    obtain ⟨earlier, drawn⟩ := runsFresh_concat fresh
    have before := ih (fun other member => valid other (by simp [member])) earlier
    have accepted := valid operation (by simp)
    rw [run_concat]
    rcases step_cases before.toLinked peers operation with moves | ⟨call, dispatches⟩
    · refine (kept_moves before accepted moves).imp ?_ ?_
      · intro number call found done reason
        rcases reason with earlier | suffers
        · exact endedBy_concat earlier operation
        · rw [options_run] at suffers
          exact ⟨operations, operation, [], rfl, suffers, call, by rw [run_concat, found], done⟩
      · intro number call found done reason
        rcases reason with earlier | suffers
        · exact endedBy_concat earlier operation
        · exact ⟨operations, operation, [], rfl, suffers, call, by rw [run_concat, found], done⟩
    · refine (kept_dispatch before accepted drawn dispatches).imp ?_ ?_
      · exact fun _ _ earlier => endedBy_concat earlier operation
      · exact fun _ _ earlier => endedBy_concat earlier operation

/--
In a run over messages from the wire and invocation ids that are not in use, what is tracked leads
to targets that have not finished, open calls wait for all such targets and for at least one, and
the states of a call and its targets agree. So a call none of whose invocations is tracked any more
was answered once and for all, unless it lost its caller.
-/
theorem no_call_is_lost (peers : Peers) (options : Options) (operations : List Operation)
    (valid : ∀ operation ∈ operations, operation.IsValid)
    (fresh : RunsFresh peers options operations) :
    let dealer := run peers options operations
    (∀ callee invocation number index,
      dealer.tracked.find? (callee, invocation) = some (number, index) →
        ∃ call target, dealer.calls[number]? = some call ∧ call.targets[index]? = some target ∧
          target.callee = callee ∧ target.invocation = invocation ∧
          target.state.isFinished = false) ∧
    (∀ number call, dealer.calls[number]? = some call → call.state ≠ .completed →
      call.remaining = call.unfinished ∧ 1 ≤ call.remaining ∧
        ∀ index target, call.targets[index]? = some target → target.state.isFinished = false →
          dealer.tracked.find? (target.callee, target.invocation) = some (number, index)) ∧
    (∀ number call, dealer.calls[number]? = some call →
      (call.state = .pending → ∀ target ∈ call.targets, target.state ≠ .interrupted) ∧
      (call.state = .canceling → ∀ target ∈ call.targets, target.state ≠ .active) ∧
      (call.state = .completed → ∀ target ∈ call.targets, target.state = .active →
        EndedBy peers options operations number (IsSkip options.defaultCancelMode))) ∧
    (∀ number call, dealer.calls[number]? = some call →
      (∀ key index, dealer.tracked.find? key ≠ some (number, index)) →
        (∃ last, (dealer.replies number).filter (fun reply => reply.2.isFinal) =
          [(call.caller, last)]) ∨
        EndedBy peers options operations number IsFarewell) := by
  intro dealer
  have kept := kept_run peers options operations valid fresh
  refine ⟨?_, ?_, ?_, ?_⟩
  · intro callee invocation number index located
    obtain ⟨call, target, found, tracks, same⟩ := kept.tracked located
    obtain ⟨rfl, rfl⟩ := Prod.mk.inj same
    exact ⟨call, target, found, tracks.located, rfl, rfl, tracks.left⟩
  · intro number call found open'
    have opened : call.isCompleted = false := by simpa [Call.isCompleted] using open'
    have sound := kept.sound call (List.mem_of_getElem? found)
    exact ⟨sound.balanced, sound.awaited opened, fun index target => kept.awaited found opened⟩
  · intro number call found
    have sound := kept.sound call (List.mem_of_getElem? found)
    refine ⟨fun state => (sound.pending state).2, fun state => (sound.canceling state).2, ?_⟩
    intro state target member active
    by_cases mode : call.cancelMode = some .skip
    · exact kept.skip found (by simp [Call.isCompleted, state]) mode
    · exact absurd active (sound.completed state mode target member)
  · intro number call found untracked
    rcases kept.answered found (kept.untracked found untracked) with
      gone | ⟨progress, last, final, replies⟩
    · exact .inr gone
    · refine .inl ⟨last.message, ?_⟩
      rw [replies, finals_transcript final]

theorem no_call_is_lost_of_two_targets :
    let shared : Dict := [(Dict.Key.invoke, .text "roundrobin")]
    let wanted : Dict := [(Dict.Key.receiveProgress, .bool true)]
    let operations : List Operation :=
      [.handle 0 0 1 ⟨.register, [.ofNat 1, .dict shared, .text "sum"]⟩,
        .handle 0 0 1 ⟨.register, [.ofNat 2, .dict shared, .text "sum"]⟩,
        .handle 0 0 2 ⟨.call, [.ofNat 7, .dict wanted, .text "sum"]⟩,
        .handle 0 0 1 ⟨.yield, [.ofNat 1, .dict []]⟩]
    let dealer := run obliging {} operations
    (∀ operation ∈ operations, operation.IsValid) ∧ RunsFresh obliging {} operations ∧
      dealer.tracked.find? (1, 2) = some (0, 1) ∧
      ∃ call target, dealer.calls[0]? = some call ∧ call.targets[1]? = some target ∧
        target.state.isFinished = false ∧ call.remaining = call.unfinished ∧
        1 ≤ call.remaining := by
  intro shared wanted operations dealer
  have valid : ∀ operation ∈ operations, operation.IsValid := by
    simp only [operations, List.forall_mem_cons, List.not_mem_nil, false_imp_iff, implies_true,
      and_true]
    exact ⟨rfl, rfl, rfl, rfl⟩
  have fresh : RunsFresh obliging {} operations := by decide +kernel
  have awaited : dealer.tracked.find? (1, 2) = some (0, 1) := by decide +kernel
  obtain ⟨tracked, waiting, -, -⟩ := no_call_is_lost obliging {} operations valid fresh
  obtain ⟨call, target, found, located, -, -, left⟩ := tracked 1 2 0 1 awaited
  have states : ∀ call ∈ dealer.calls, call.state ≠ .completed := by decide +kernel
  obtain ⟨balanced, some, -⟩ := waiting 0 call found (states call (List.mem_of_getElem? found))
  exact ⟨valid, fresh, awaited, call, target, found, located, left, balanced, some⟩

end Dealer

end CallRouter
