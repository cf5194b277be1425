import CallRouter.Proofs.Dealer.Failing

namespace CallRouter

namespace Call

variable {call after : Call}

theorem idle_of_advances (advances : call.Advances after)
    (idle : ∀ target ∈ call.targets, target.state ≠ .active) :
    ∀ target ∈ after.targets, target.state ≠ .active := by
  intro target member active
  obtain ⟨index, located⟩ := List.mem_iff_getElem?.mp member
  obtain ⟨before, there, -, less⟩ := advances index target located
  exact idle before (List.mem_of_getElem? there) (Target.State.active_of_rank less active)

theorem idle_interrupted (call : Call) :
    ∀ target ∈ call.interrupted.targets, target.state ≠ .active := by
  intro target member
  obtain ⟨before, -, rfl⟩ := List.mem_map.mp member
  exact before.interrupted_not_active

theorem idle_of_not_pending (sound : call.Sound) (opened : call.isCompleted = false)
    (past : call.state ≠ .pending) : ∀ target ∈ call.targets, target.state ≠ .active := by
  cases state : call.state with
  | pending => exact absurd state past
  | canceling => exact (sound.canceling state).2
  | completed => simp [isCompleted, state] at opened

theorem canceling_of_idle (sound : call.Sound) (opened : call.isCompleted = false)
    (idle : ∀ target ∈ call.targets, target.state ≠ .active) : call.state = .canceling := by
  have awaited : 0 < call.unfinished := sound.balanced ▸ sound.awaited opened
  obtain ⟨target, member, left⟩ := List.countP_pos_iff.mp awaited
  cases state : call.state with
  | pending =>
    have uninterrupted := (sound.pending state).2 target member
    have past := idle target member
    cases stage : target.state <;> simp_all [Target.State.isFinished]
  | canceling => rfl
  | completed => simp [isCompleted, state] at opened

theorem activeTargets_eq_nil (idle : ∀ target ∈ call.targets, target.state ≠ .active) :
    call.activeTargets = [] :=
  List.filter_eq_nil_iff.mpr fun target member => by simpa using idle target member

end Call

namespace Dealer

variable {peers : Peers} {operation : Operation} {dealer later : Dealer} {call after : Call}
  {number : Nat} {rpc : Rpc}

section Modes

def farewell (number : Nat) (call : Call) (mode : CancelMode) : Effect :=
  .send call.caller (Rpc.error .call call.request [(Dict.Key.reason, .text mode.reason)]
    ErrorUri.canceled.uri .empty).message (some number)

theorem outgoing_ended (ids : call.ValidIds) (number : Nat) (mode : CancelMode) :
    outgoing (some number) call.caller (ended call mode.reason .canceled) =
      [farewell number call mode] := by
  have sendable : (ended call mode.reason .canceled).isSendable = true :=
    Rpc.isSendable_error ids.request (ErrorUri.isValid_uri _) .call _ _
  rw [outgoing_eq, if_pos sendable]
  rfl

theorem mailing_interrupts (ids : call.ValidIds) (number : Nat) (mode : CancelMode) :
    mailing number (call.interrupts mode mode.reason) =
      call.activeTargets.map (interruption number mode) :=
  mailing_interruptions
    (fun target member => ids.invocations target (List.mem_of_mem_filter member)) number mode

theorem turn_of_skip (ids : call.ValidIds) (opened : call.isCompleted = false) :
    dealer.turn number call (.cancellation .skip) =
      { dealer with
        calls := dealer.calls.set number (call.setCancelMode .skip).completed
        cancelable := forgetting dealer.cancelable number call
        statistics := recording dealer.statistics (call.noteAt 0 .cancellation)
        effects := dealer.effects ++ [farewell number call .skip] } := by
  simp only [turn, Call.turn, mailing_cons, outgoing_ended ids, opened, releasing_nil]
  rfl

theorem turn_of_killNoWait (ids : call.ValidIds) (opened : call.isCompleted = false) :
    dealer.turn number call (.cancellation .killNoWait) =
      { dealer with
        calls := dealer.calls.set number (call.setCancelMode .killNoWait).completed.interrupted
        tracked := releasing dealer.tracked (call.activeTargets.map Call.Target.key)
        cancelable := forgetting dealer.cancelable number call
        statistics := recording dealer.statistics (call.noteAt 0 .cancellation)
        effects := dealer.effects ++ farewell number call .killNoWait ::
          call.activeTargets.map (interruption number .killNoWait) } := by
  have sent : mailing number ((call.caller, ended call CancelMode.killNoWait.reason .canceled) ::
      call.interrupts .killNoWait CancelMode.killNoWait.reason) =
        farewell number call .killNoWait ::
          call.activeTargets.map (interruption number .killNoWait) := by
    rw [mailing_cons, outgoing_ended ids, mailing_interrupts ids, List.singleton_append]
  rw [← sent]
  simp only [turn, Call.turn, opened]
  rfl

theorem turn_of_kill (ids : call.ValidIds) (opened : call.isCompleted = false) :
    dealer.turn number call (.cancellation .kill) =
      { dealer with
        calls := dealer.calls.set number call.begun.interrupted
        statistics := recording dealer.statistics (call.noteAt 0 .cancellation)
        effects := dealer.effects ++ call.activeTargets.map (interruption number .kill) } := by
  simp only [turn, Call.turn, mailing_interrupts ids, opened, releasing_nil]
  rfl

end Modes

section Conclusion

inductive Concludes (dealer : Dealer) (number : Nat) (call : Call) (operation : Operation) :
    Rpc → Prop
  | result {index : Nat} {target : Call.Target} {payload : Payload}
      (tracks : dealer.Tracks number call index target)
      (speaks : Speaks target.key operation (.result payload)) (last : call.unfinished = 1) :
      Concludes dealer number call operation (.result call.request [] payload)
  | failure {index : Nat} {target : Call.Target} {details : Dict} {error : String}
      {payload : Payload} (tracks : dealer.Tracks number call index target)
      (speaks : Speaks target.key operation (.failure details error payload)) :
      Concludes dealer number call operation (.error .call call.request details error payload)

theorem last_of_unfinished (sound : call.Sound) (opened : call.isCompleted = false) :
    ¬ 0 < call.remaining - 1 ↔ call.unfinished = 1 := by
  have awaited := sound.awaited opened
  rw [sound.balanced] at awaited ⊢
  omega

theorem Concludes.step (concludes : dealer.Concludes number call operation rpc)
    (ids : call.ValidIds) (sound : call.Sound) (found : dealer.calls[number]? = some call)
    (opened : call.isCompleted = false) (valid : operation.IsValid) (peers : Peers) :
    (dealer.step peers operation).replies number =
        dealer.replies number ++ [(call.caller, rpc.message)] ∧
      ∃ after, (dealer.step peers operation).calls[number]? = some after ∧
        after.isCompleted = true := by
  cases concludes with
  | @result index target payload tracks speaks last =>
    have answered := speaks.answered found tracks peers
    generalize dealer.step peers operation = later at answered
    cases answered with
    | result elapsed =>
      have final := (last_of_unfinished sound opened).mpr last
      have replies := Call.replies_result opened index payload elapsed
      rw [if_neg final] at replies
      refine ⟨replies_of_turn replies (Rpc.isSendable_result ids.request _ payload), _,
        (getElem?_turn found number).trans (if_pos rfl), ?_⟩
      exact (Call.completed_result opened index payload elapsed).mpr final
  | @failure index target details error payload tracks speaks =>
    have answered := speaks.answered found tracks peers
    generalize dealer.step peers operation = later at answered
    cases answered with
    | failure =>
      refine ⟨replies_of_turn (Call.replies_failure opened index details error payload)
        (Rpc.isSendable_error ids.request (speaks.named valid) .call _ _), _,
        (getElem?_turn found number).trans (if_pos rfl), ?_⟩
      exact Call.completed_failure opened index details error payload

theorem concluded_or_quit (linked : dealer.Linked) (sound : call.Sound)
    (found : dealer.calls[number]? = some call) (opened : call.isCompleted = false)
    (timely : ¬ Lapses peers dealer number call operation)
    (there : (dealer.step peers operation).calls[number]? = some after)
    (done : after.isCompleted = true) :
    (∃ rpc, dealer.Concludes number call operation rpc) ∨ dealer.Quits number call operation := by
  refine or_iff_not_imp_right.mpr fun stays => ?_
  have changed : (dealer.step peers operation).calls[number]? ≠ some call := by
    intro kept
    rw [Option.some.inj (there.symm.trans kept), opened] at done
    cases done
  by_contra unconcluded
  refine changed (Eq.trans (Spares.same ?_) found)
  refine spares_step linked found stays timely fun key answer speaks index tracked => ?_
  obtain ⟨holder, target, held, tracks, rfl⟩ := linked.tracked tracked
  obtain rfl : call = holder := Option.some.inj (found.symm.trans held)
  have answered := speaks.answered found tracks peers
  generalize dealer.step peers operation = later at answered there changed
  cases answered with
  | ignored => exact changed found
  | progress => exact changed ((getElem?_turn found number).trans (if_pos rfl))
  | result elapsed =>
    rw [getElem?_turn found, if_pos rfl] at there
    rw [← Option.some.inj there, Call.completed_result opened, last_of_unfinished sound opened]
      at done
    exact unconcluded ⟨_, .result tracks speaks done⟩
  | failure => exact unconcluded ⟨_, .failure tracks speaks⟩

end Conclusion

section Killed

variable {options : Options} {operations : List Operation}

/--
At some point of a run a call is canceled but open. It waits for all its targets that have not
finished. The answer that concludes it is told its caller, who hears nothing after that, and the call
does not end before, unless it is given up.
-/
structure Killed (peers : Peers) (options : Options) (operations : List Operation) (number : Nat)
    (call : Call) : Prop where
  canceling : call.state = .canceling
  tracked : ∀ {index : Nat} {target : Call.Target}, call.targets[index]? = some target →
    target.state.isFinished = false →
      (run peers options operations).tracked.find? target.key = some (number, index)
  unanswered : ∀ reply ∈ (run peers options operations).replies number, reply.2.isFinal = false
  concluded : ∀ {operation : Operation} {rpc : Rpc},
    (run peers options operations).Concludes number call operation rpc → operation.IsValid →
      (∃ after, (run peers options (operations ++ [operation])).calls[number]? = some after ∧
        after.isCompleted = true) ∧
      ∀ rest, (run peers options (operations ++ operation :: rest)).replies number =
        (run peers options operations).replies number ++ [(call.caller, rpc.message)]
  ended : ∀ {operation : Operation} {after : Call},
    (run peers options (operations ++ [operation])).calls[number]? = some after →
    after.isCompleted = true →
      (∃ rpc, (run peers options operations).Concludes number call operation rpc) ∨
        (run peers options operations).Quits number call operation

theorem killed_of_idle
    (draws : ∀ session count, isValidId (peers.requestId session count) = true)
    (valid : ∀ operation ∈ operations, operation.IsValid)
    (fresh : RunsFresh peers options operations)
    (found : (run peers options operations).calls[number]? = some call)
    (opened : call.isCompleted = false) (idle : ∀ target ∈ call.targets, target.state ≠ .active) :
    Killed peers options operations number call := by
  have awaiting := awaiting_run peers options operations fresh
  have ids := (validIds_run draws options operations valid).calls call (List.mem_of_getElem? found)
  have sound := awaiting.sound call (List.mem_of_getElem? found)
  refine ⟨Call.canceling_of_idle sound opened idle, awaiting.awaited found opened, ?_, ?_, ?_⟩
  · intro reply member
    obtain ⟨progress, last, heard, replies⟩ := awaiting.heard found
    have unsaid : last = none := by
      by_contra said
      simp [heard.ended said] at opened
    rw [replies, unsaid] at member
    obtain ⟨rpc, among, rfl⟩ := List.mem_map.mp member
    obtain ⟨payload, -, rfl⟩ := List.mem_map.mp (by simpa using among)
    exact isFinal_progressReply call payload
  · intro operation rpc concludes asked
    obtain ⟨told, after, there, done⟩ := concludes.step ids sound found opened asked peers
    rw [← run_concat] at told there
    refine ⟨⟨after, there, done⟩, fun rest => ?_⟩
    rw [← told, ← replies_run_of_done there done rest, List.append_assoc, List.singleton_append]
  · intro operation after there done
    rw [run_concat] at there
    refine concluded_or_quit awaiting.toLinked sound found opened (fun lapses => ?_) there done
    -- No target is left whose time could be looked at.
    cases lapses with
    | timeout tracks due =>
      obtain ⟨-, -, target, active, -⟩ := Call.isDue_iff.mp due
      rw [Call.activeTargets_eq_nil idle] at active
      cases active

end Killed

/--
A CANCEL of an open call does what its mode says. `skip` tells the caller that the call is canceled
and leaves the targets alone, `killnowait` tells it and interrupts the active targets, of which none
is waited for any more, and the caller hears no more of the call in either case. `kill` only
interrupts the active targets, once. Then the call waits for all its targets, until the first error
or the last result ends it and is the last that its caller hears, unless the call is given up before.
-/
theorem cancellation_obeys_mode (peers : Peers) (options : Options) (operations : List Operation)
    (draws : ∀ session count, isValidId (peers.requestId session count) = true)
    (valid : ∀ operation ∈ operations, operation.IsValid)
    (fresh : RunsFresh peers options operations) (now : Time) (draw : Nat)
    {session request number : Nat} {message : Message} {requested : Dict}
    {choice : Option CancelMode} (asked : message.IsValid)
    (reads : Rpc.ofMessage message = .ok (.cancel request requested))
    (chosen : requested.choice CancelMode.ofName Dict.Key.mode = .ok choice)
    (located : (run peers options operations).cancelable.find? (session, request) = some number) :
    let dealer := run peers options operations
    let canceled := operations ++ [.handle now draw session message]
    let later := run peers options canceled
    let mode := choice.getD options.defaultCancelMode
    ∃ call, dealer.calls[number]? = some call ∧ call.caller = session ∧ call.request = request ∧
      call.isCompleted = false ∧ (call.state = .canceling → call.activeTargets = []) ∧
      (call.targets.map Call.Target.key).Nodup ∧
      (mode = .skip → later =
        { dealer with
          calls := dealer.calls.set number (call.setCancelMode .skip).completed
          cancelable := forgetting dealer.cancelable number call
          statistics := recording dealer.statistics (call.noteAt 0 .cancellation)
          effects := dealer.effects ++ [farewell number call .skip] }) ∧
      (mode = .killNoWait → later =
        { dealer with
          calls := dealer.calls.set number (call.setCancelMode .killNoWait).completed.interrupted
          tracked := releasing dealer.tracked (call.activeTargets.map Call.Target.key)
          cancelable := forgetting dealer.cancelable number call
          statistics := recording dealer.statistics (call.noteAt 0 .cancellation)
          effects := dealer.effects ++ farewell number call .killNoWait ::
            call.activeTargets.map (interruption number .killNoWait) }) ∧
      (mode = .kill → call.state = .pending → later =
        { dealer with
          calls := dealer.calls.set number call.begun.interrupted
          statistics := recording dealer.statistics (call.noteAt 0 .cancellation)
          effects := dealer.effects ++ call.activeTargets.map (interruption number .kill) }) ∧
      (mode = .kill → call.state = .canceling → later = dealer) ∧
      (mode ≠ .kill → ∀ more,
        (run peers options (canceled ++ more)).replies number = later.replies number) ∧
      (mode = .kill → ∀ more, (∀ operation ∈ more, operation.IsValid) →
        RunsFresh peers options (canceled ++ more) →
        ∃ after, (run peers options (canceled ++ more)).calls[number]? = some after ∧
          (after.isCompleted = false →
            Killed peers options (canceled ++ more) number after)) := by
  intro dealer canceled later mode
  have awaiting : dealer.Awaiting := awaiting_run peers options operations fresh
  have ids : dealer.ValidIds := validIds_run draws options operations valid
  have default : dealer.options.defaultCancelMode = options.defaultCancelMode := by
    rw [options_run]
  obtain ⟨call, found, caller, named, opened, turned, same⟩ :=
    cancel_of_located awaiting.toLinked chosen located
  have member := List.mem_of_getElem? found
  have sound := awaiting.sound call member
  have sends := ids.calls call member
  have step : later = dealer.cancel session request requested := by
    simp only [later, canceled, run_concat, Dealer.step, handle, reads]
    rfl
  rw [← step, default] at turned same
  change (mode = .kill → _) → later = dealer.turn number call (.cancellation mode) at turned
  change mode = .kill → _ → _ at same
  refine ⟨call, found, caller, named, opened, ?_, keys_apart_run fresh call member, ?_, ?_, ?_, ?_,
    ?_, ?_⟩
  · exact fun canceling => Call.activeTargets_eq_nil (sound.canceling canceling).2
  · intro skip
    rw [turned (by simp [skip]), skip, turn_of_skip sends opened]
  · intro killNoWait
    rw [turned (by simp [killNoWait]), killNoWait, turn_of_killNoWait sends opened]
  · intro kill pending
    rw [turned fun _ => pending, kill, turn_of_kill sends opened]
  · exact fun kill canceling => same kill (by simp [canceling])
  · intro other more
    have ended : later.calls[number]? = some (call.turn (.cancellation mode)).call := by
      rw [turned (absurd · other), getElem?_turn found, if_pos rfl]
    have cancels : (Call.Event.cancellation mode).isCancellation = true := rfl
    rcases call.state_turn_canceled cancels with ⟨kill, -⟩ | ⟨-, done⟩
    · exact absurd (Call.Event.cancellation.inj kill) other
    · exact replies_run_of_done ended (by simp [Call.isCompleted, done]) more
  · intro kill more asks again
    have killed : ∃ begun, later.calls[number]? = some begun ∧
        ∀ target ∈ begun.targets, target.state ≠ .active := by
      by_cases pending : call.state = .pending
      · rw [turned fun _ => pending, kill]
        exact ⟨_, (getElem?_turn found number).trans (if_pos rfl), call.begun.idle_interrupted⟩
      · rw [same kill pending]
        exact ⟨call, found, Call.idle_of_not_pending sound opened pending⟩
    obtain ⟨begun, there, idle⟩ := killed
    obtain ⟨after, held, -, -, advances⟩ := persists_run peers options canceled more there
    refine ⟨after, held, fun unended => ?_⟩
    have checked : ∀ operation ∈ canceled, operation.IsValid :=
      List.forall_mem_append.mpr ⟨valid, List.forall_mem_singleton.mpr asked⟩
    exact killed_of_idle draws (List.forall_mem_append.mpr ⟨checked, asks⟩) again held unended
      (Call.idle_of_advances advances idle)

theorem cancellation_obeys_mode_of_kill :
    let shared : Dict := [("invoke", .text "random")]
    let operations : List Operation :=
      [.handle 0 0 1 ⟨.register, [.ofNat 1, .dict shared, .text "sum"]⟩,
        .handle 0 0 3 ⟨.register, [.ofNat 1, .dict shared, .text "sum"]⟩,
        .handle 0 0 4 ⟨.register, [.ofNat 1, .dict shared, .text "sum"]⟩,
        .handle 0 0 2
          ⟨.call, [.ofNat 7, .dict [(Dict.Key.receiveProgress, .bool true)], .text "sum"]⟩,
        .handle 0 0 4 ⟨.yield, [.ofNat 1, .dict []]⟩]
    let message : Message := ⟨.cancel, [.ofNat 7, .dict [(Dict.Key.mode, .text "kill")]]⟩
    let canceled := operations ++ [.handle 0 0 2 message]
    let failure : Operation := .handle 0 0 1 ⟨.error, [.ofNat 68, .ofNat 1, .dict [], .text "no"]⟩
    (∀ operation ∈ operations, operation.IsValid) ∧ RunsFresh obliging {} operations ∧
    ∃ call, (run obliging {} operations).calls[0]? = some call ∧ call.state = .pending ∧
      call.activeTargets.map Call.Target.key = [(1, 1), (3, 1)] ∧
      (run obliging {} canceled).effects =
        (run obliging {} operations).effects ++ call.activeTargets.map (interruption 0 .kill) ∧
      ∃ waiting, (run obliging {} (canceled ++ [.closeSession 3])).calls[0]? = some waiting ∧
        waiting.state = .canceling ∧
        ∀ rest, (run obliging {} (canceled ++ [.closeSession 3] ++ failure :: rest)).replies 0 =
          [(2, ⟨.result, [.ofNat 7, .dict [(Dict.Key.progress, .bool true)]]⟩),
            (2, ⟨.error, [.ofNat 48, .ofNat 7, .dict [], .text "no"]⟩)] := by
  intro shared operations message canceled failure
  have valid : ∀ operation ∈ operations, operation.IsValid := by
    simp only [operations, List.forall_mem_cons, List.not_mem_nil, false_imp_iff, implies_true,
      and_true]
    exact ⟨rfl, rfl, rfl, rfl, rfl⟩
  have fresh : RunsFresh obliging {} operations := by decide +kernel
  have asked : message.IsValid := rfl
  have reads : Rpc.ofMessage message = .ok (.cancel 7 [(Dict.Key.mode, .text "kill")]) := rfl
  have chosen : Dict.choice CancelMode.ofName Dict.Key.mode [(Dict.Key.mode, .text "kill")] =
      .ok (some .kill) := rfl
  have located : (run obliging {} operations).cancelable.find? (2, 7) = some 0 := by
    decide +kernel
  have before : (run obliging {} operations).calls[0]?.any (fun call => call.state = .pending &&
      call.activeTargets.map Call.Target.key = [(1, 1), (3, 1)]) = true := by decide +kernel
  obtain ⟨call, found, caller, request, -, -, -, -, -, kills, -, -, killed⟩ :=
    cancellation_obeys_mode obliging {} operations
      (fun _ count => isValidId_requestIdAfter count) valid fresh 0 0 asked reads chosen located
  simp only [found, Option.any_some, Bool.and_eq_true, decide_eq_true_eq] at before
  obtain ⟨pending, active⟩ := before
  have again : RunsFresh obliging {} (canceled ++ [.closeSession 3]) := by decide +kernel
  obtain ⟨waiting, held, wait⟩ := killed rfl [.closeSession 3] (by simp [Operation.IsValid]) again
  have current : (run obliging {} (canceled ++ [.closeSession 3])).calls[0]?.any (fun call =>
      !call.isCompleted && call.caller = 2 && call.request = 7 && call.targets[0]?.any fun target =>
        target.key = (1, 1) && !target.state.isFinished) = true := by decide +kernel
  have told : (run obliging {} (canceled ++ [.closeSession 3])).replies 0 =
      [(2, ⟨.result, [.ofNat 7, .dict [(Dict.Key.progress, .bool true)]]⟩)] := by decide +kernel
  simp only [canceled] at held current
  rw [held] at current
  simp only [Option.any_some, Bool.and_eq_true, Bool.not_eq_true', decide_eq_true_eq] at current
  obtain ⟨⟨⟨opened, owner⟩, number⟩, first⟩ := current
  obtain ⟨target, there, both⟩ := (Option.any_eq_true _ _).mp first
  simp only [Bool.and_eq_true, Bool.not_eq_true', decide_eq_true_eq] at both
  have killed := wait opened
  have speaks : Speaks target.key failure (.failure [] "no" .empty) := by
    rw [both.1]
    exact .failure rfl
  have tracks : (run obliging {} (canceled ++ [.closeSession 3])).Tracks 0 waiting 0 target :=
    ⟨killed.tracked there both.2, there, both.2⟩
  refine ⟨valid, fresh, call, found, pending, active, ?_, waiting, held, killed.canceling, ?_⟩
  · rw [kills rfl pending]
  · intro rest
    have last := (killed.concluded (.failure tracks speaks) rfl).2 rest
    rw [last, told, owner, number]
    rfl

end Dealer

end CallRouter
