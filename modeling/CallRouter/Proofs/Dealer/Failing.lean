import CallRouter.Proofs.Dealer.Relaying

namespace CallRouter

namespace Call

variable {call : Call} {index : Nat}

def siblings (call : Call) (index : Nat) : List Target :=
  (call.targets.eraseIdx index).filter fun target => target.state == .active

theorem activeTargets_settled (call : Call) (index : Nat) (outcome : Outcome) :
    (call.settled index outcome).activeTargets = call.siblings index := by
  simp only [activeTargets, settled, siblings]
  generalize call.targets = targets
  induction targets generalizing index with
  | nil => simp
  | cons first targets ih =>
    cases index with
    | zero => simp [Target.finished]
    | succ index => simp [List.filter_cons, ih]

theorem interrupted_of_idle (idle : call.activeTargets = []) : call.interrupted = call := by
  have same : call.targets.map Target.interrupted = call.targets := by
    refine (List.map_congr_left fun target member => ?_).trans (List.map_id _)
    have past : ¬ target.state = .active := by
      simpa using List.filter_eq_nil_iff.mp idle target member
    exact if_neg past
  rw [interrupted, same]

theorem idle_of_kill (sound : call.Sound) (opened : call.isCompleted = false)
    (killed : call.cancelMode = some .kill) : ∀ target ∈ call.targets, target.state ≠ .active := by
  cases state : call.state with
  | pending => simp [(sound.pending state).1] at killed
  | canceling => exact (sound.canceling state).2
  | completed => simp [isCompleted, state] at opened

theorem turn_failure (sound : call.Sound) (opened : call.isCompleted = false) (details : Dict)
    (error : String) (payload : Payload) :
    call.turn (.failure index details error payload) =
      { call := (call.settled index .error).completed.interrupted
        sent := (call.caller, .error .call call.request details error payload) ::
          (call.siblings index).map
            (Target.interrupt .killNoWait CancelMode.killNoWait.reason)
        released := call.keyAt index ++ (call.siblings index).map Target.key
        recorded := call.noteAt index .failure } := by
  by_cases killed : call.cancelMode = some .kill
  · have none : call.siblings index = [] := by
      refine List.filter_eq_nil_iff.mpr fun target member => ?_
      simpa using idle_of_kill sound opened killed target (List.mem_of_mem_eraseIdx member)
    have same : (call.settled index .error).completed.interrupted =
        (call.settled index .error).completed :=
      interrupted_of_idle ((activeTargets_settled call index .error).trans none)
    simp [turn, opened, killed, none, same]
  · simp [turn, opened, killed, stop, interrupts, activeTargets_settled]

theorem mem_siblings {j : Nat} {target : Target} (apart : j ≠ index)
    (located : call.targets[j]? = some target) :
    target ∈ call.siblings index ↔ target.state = .active := by
  have member : target ∈ call.targets.eraseIdx index :=
    List.mem_eraseIdx_iff_getElem?.mpr ⟨j, apart, located⟩
  simp [siblings, member]

end Call

namespace Dealer

open Relation

variable {peers : Peers} {options : Options} {operation : Operation} {dealer later : Dealer}
  {operations more : List Operation} {call : Call} {number index : Nat} {key : Nat × Nat}

def interruption (number : Nat) (mode : CancelMode) (target : Call.Target) : Effect :=
  .send target.callee (Rpc.interrupt target.invocation
    [(Dict.Key.mode, .text mode.name), (Dict.Key.reason, .text mode.reason)]).message (some number)

theorem mailing_interruptions {targets : List Call.Target}
    (ids : ∀ target ∈ targets, isValidId target.invocation = true) (number : Nat)
    (mode : CancelMode) :
    mailing number (targets.map (Call.Target.interrupt mode mode.reason)) =
      targets.map (interruption number mode) := by
  rw [mailing_of_sendable, List.map_map]
  · rfl
  · intro entry member
    obtain ⟨target, among, rfl⟩ := List.mem_map.mp member
    exact (Rpc.isSendable_interrupt _ _).trans (ids target among)

section Kept

theorem Cause.answers {event : Call.Event} {target : Call.Target}
    (cause : Cause peers dealer number call operation event)
    (about : event.index? = some index) (located : call.targets[index]? = some target) :
    Answers target.key operation ∨ operation = .closeSession target.callee := by
  cases cause with
  | result tracks reads flag =>
    obtain rfl := Option.some.inj about
    obtain rfl := Option.some.inj (tracks.located.symm.trans located)
    exact .inl (.result reads flag)
  | failure tracks reads =>
    obtain rfl := Option.some.inj about
    obtain rfl := Option.some.inj (tracks.located.symm.trans located)
    exact .inl (.error reads)
  | loss tracks =>
    obtain rfl := Option.some.inj about
    obtain rfl := Option.some.inj (tracks.located.symm.trans located)
    exact .inr rfl
  | _ => cases about

theorem tracked_moves (awaiting : dealer.Awaiting) (found : dealer.calls[number]? = some call)
    (done : call.isCompleted = true) (tracked : dealer.tracked.find? key = some (number, index))
    (unanswered : ¬ Answers key operation) (present : operation ≠ .closeSession key.1)
    (moves : Moves peers operation dealer later) :
    later.tracked.find? key = some (number, index) := by
  induction moves with
  | refl => exact tracked
  | @tail middle later before move ih =>
    have current := awaiting_moves awaiting before
    cases move with
    | aside aside => rw [aside.tracked, ih]
    | retire closing => exact ih
    | @turn other holder event held cause =>
      refine find?_releasing.mpr ⟨ih, fun member => ?_⟩
      rcases Call.released_cases cause.admits member with
        ⟨place, about, subject⟩ | ⟨opened, -, place, target, located, active, rfl⟩
      · obtain ⟨target, tracks⟩ := cause.tracks about
        rw [Call.keyAt_of_found tracks.located, List.mem_singleton] at subject
        subst subject
        exact (cause.answers about tracks.located).elim unanswered present
      · -- The target would belong to the completed call, of which none is released in this way.
        have left : target.state.isFinished = false := by simp [active, Call.Target.State.isFinished]
        have place := current.awaited held opened located left
        rw [ih] at place
        obtain ⟨rfl, rfl⟩ := Prod.mk.inj (Option.some.inj place)
        obtain ⟨after, also, -, ended, -⟩ := persists_moves before found
        obtain rfl : holder = after := Option.some.inj (held.symm.trans also)
        simp [ended done] at opened

theorem tracked_step (awaiting : dealer.Awaiting) (found : dealer.calls[number]? = some call)
    (done : call.isCompleted = true) (tracked : dealer.tracked.find? key = some (number, index))
    (fresh : DrawsFresh dealer (dealer.step peers operation))
    (unanswered : ¬ Answers key operation) (present : operation ≠ .closeSession key.1) :
    (dealer.step peers operation).tracked.find? key = some (number, index) := by
  rcases step_cases awaiting.toLinked peers operation with moves | ⟨other, dispatches⟩
  · exact tracked_moves awaiting found done tracked unanswered present moves
  · rw [dispatches.tracked, find?_tracking_of_notMem, tracked]
    intro member
    obtain ⟨target, among, rfl⟩ := List.mem_map.mp member
    have untracked := (fresh other (by simp [dispatches.calls])).2 target among
    rw [tracked] at untracked
    cases untracked

theorem tracked_run (found : (run peers options operations).calls[number]? = some call)
    (done : call.isCompleted = true)
    (tracked : (run peers options operations).tracked.find? key = some (number, index))
    (fresh : RunsFresh peers options (operations ++ more))
    (waits : ∀ operation ∈ more, ¬ Answers key operation ∧ operation ≠ .closeSession key.1) :
    (run peers options (operations ++ more)).tracked.find? key = some (number, index) := by
  induction more using List.reverseRecOn with
  | nil => rwa [List.append_nil]
  | append_singleton more operation ih =>
    rw [← List.append_assoc] at fresh ⊢
    obtain ⟨early, drawn⟩ := runsFresh_concat fresh
    have before := ih early fun other member => waits other (List.mem_append_left _ member)
    obtain ⟨after, also, -, ended, -⟩ := persists_run peers options operations more found
    obtain ⟨unanswered, present⟩ := waits operation (by simp)
    rw [run_concat]
    exact tracked_step (awaiting_run peers options _ early) also (ended done) before drawn
      unanswered present

end Kept

section Failure

variable {target : Call.Target} {details : Dict} {error : String} {payload : Payload}

theorem turn_of_failure (ids : call.ValidIds) (sound : call.Sound)
    (opened : call.isCompleted = false) (located : call.targets[index]? = some target)
    (named : Uri.isValid error = true) :
    dealer.turn number call (.failure index details error payload) =
      { dealer with
        calls := dealer.calls.set number (call.settled index .error).completed.interrupted
        tracked := releasing dealer.tracked
          (target.key :: (call.siblings index).map Call.Target.key)
        cancelable := forgetting dealer.cancelable number call
        statistics := dealer.statistics.record [target.pattern.uri] .failure
        effects := dealer.effects ++
          .send call.caller (Rpc.error .call call.request details error payload).message
            (some number) ::
          (call.siblings index).map (interruption number .killNoWait) } := by
  have sendable : (Rpc.error .call call.request details error payload).isSendable = true :=
    Rpc.isSendable_error ids.request named .call _ _
  have others : ∀ sibling ∈ call.siblings index, isValidId sibling.invocation = true :=
    fun sibling member =>
      ids.invocations sibling (List.mem_of_mem_eraseIdx (List.mem_of_mem_filter member))
  simp only [turn, Call.turn_failure sound opened, Call.keyAt_of_found located,
    Call.noteAt_of_found located, mailing_cons, outgoing_eq, sendable, mailing_interruptions others,
    opened, recording_singleton, List.singleton_append]
  rfl

theorem turn_of_late_failure (done : call.isCompleted = true)
    (located : call.targets[index]? = some target) :
    dealer.turn number call (.failure index details error payload) =
      { dealer with
        calls := dealer.calls.set number (call.settled index .error)
        tracked := releasing dealer.tracked [target.key]
        statistics := dealer.statistics.record [target.pattern.uri] .failure } := by
  simp [turn, Call.turn, done, Call.keyAt_of_found located, Call.noteAt_of_found located]

theorem Awaiting.sibling (awaiting : dealer.Awaiting) (found : dealer.calls[number]? = some call)
    (opened : call.isCompleted = false) {sibling : Call.Target}
    (member : sibling ∈ call.siblings index) :
    ∃ j ≠ index, call.targets[j]? = some sibling ∧
      dealer.tracked.find? sibling.key = some (number, j) := by
  obtain ⟨among, active⟩ := List.mem_filter.mp member
  obtain ⟨j, apart, located⟩ := List.mem_eraseIdx_iff_getElem?.mp among
  have left : sibling.state.isFinished = false := by
    simp [eq_of_beq active, Call.Target.State.isFinished]
  exact ⟨j, apart, located, awaiting.awaited found opened located left⟩

theorem nodup_siblings (apart : (call.targets.map Call.Target.key).Nodup)
    (located : call.targets[index]? = some target) :
    (target.key :: (call.siblings index).map Call.Target.key).Nodup := by
  obtain ⟨bound, rfl⟩ := List.getElem?_eq_some_iff.mp located
  have all := ((List.getElem_cons_eraseIdx_perm bound).map Call.Target.key).nodup_iff.mpr apart
  exact all.sublist ((List.filter_sublist.map Call.Target.key).cons_cons _)

theorem Awaiting.failed (awaiting : dealer.Awaiting) (found : dealer.calls[number]? = some call)
    (opened : call.isCompleted = false) (tracks : dealer.Tracks number call index target)
    (member : key ∈ target.key :: (call.siblings index).map Call.Target.key) :
    ∃ j, dealer.tracked.find? key = some (number, j) ∧ ∀ other, call.targets[j]? = some other →
      j = index ∨ other.state = .active := by
  rcases List.mem_cons.mp member with rfl | among
  · exact ⟨index, tracks.tracked, fun _ _ => .inl rfl⟩
  · obtain ⟨sibling, inside, rfl⟩ := List.mem_map.mp among
    obtain ⟨j, apart, located, tracked⟩ := awaiting.sibling found opened inside
    refine ⟨j, tracked, fun other there => .inr ?_⟩
    obtain rfl := Option.some.inj (located.symm.trans there)
    exact (Call.mem_siblings apart located).mp inside

theorem Awaiting.others (awaiting : dealer.Awaiting) (found : dealer.calls[number]? = some call)
    (opened : call.isCompleted = false) (tracks : dealer.Tracks number call index target) {j : Nat}
    {sibling : Call.Target} (apart : j ≠ index) (located : call.targets[j]? = some sibling) :
    let siblings := call.siblings index
    let left := releasing dealer.tracked (target.key :: siblings.map Call.Target.key)
    (sibling.state = .active → sibling ∈ siblings ∧
      dealer.tracked.find? sibling.key = some (number, j) ∧ left.find? sibling.key = none) ∧
    (sibling.state = .interrupted → sibling ∉ siblings ∧
      left.find? sibling.key = some (number, j)) := by
  intro siblings left
  have among := Call.mem_siblings apart located
  refine ⟨fun active => ?_, fun interrupted => ?_⟩
  · have unfinished : sibling.state.isFinished = false := by
      simp [active, Call.Target.State.isFinished]
    refine ⟨among.mpr active, awaiting.awaited found opened located unfinished, ?_⟩
    rw [Option.eq_none_iff_forall_ne_some]
    intro place still
    exact (find?_releasing.mp still).2
      (List.mem_cons_of_mem _ (List.mem_map_of_mem (among.mpr active)))
  · have unfinished : sibling.state.isFinished = false := by
      simp [interrupted, Call.Target.State.isFinished]
    have waits := awaiting.awaited found opened located unfinished
    refine ⟨fun inside => ?_, find?_releasing.mpr ⟨waits, fun inside => ?_⟩⟩
    · simp [among.mp inside] at interrupted
    · obtain ⟨place, there, only⟩ := awaiting.failed found opened tracks inside
      obtain ⟨-, rfl⟩ := Prod.mk.inj (Option.some.inj (waits.symm.trans there))
      rcases only sibling located with same | active
      · exact apart same
      · simp [interrupted] at active

end Failure

/--
The first error of a target ends an open call. The caller hears just what the callee said, and each
other target that is active is interrupted and no longer waited for; one that was interrupted before
is, until it answers or its session closes. Nothing else changes, but that a failure is counted. When
the call has ended already, nobody hears of the error.
-/
theorem first_failure_ends_call (peers : Peers) (options : Options) (operations : List Operation)
    (draws : ∀ session count, isValidId (peers.requestId session count) = true)
    (valid : ∀ operation ∈ operations, operation.IsValid)
    (fresh : RunsFresh peers options operations) (now : Time) (draw : Nat)
    {callee invocation number index : Nat} {message : Message} {details : Dict} {error : String}
    {payload : Payload} (asked : message.IsValid)
    (reads : Rpc.ofMessage message = .ok (.error .invocation invocation details error payload))
    (tracked : (run peers options operations).tracked.find? (callee, invocation) =
      some (number, index)) :
    let dealer := run peers options operations
    let failed := operations ++ [.handle now draw callee message]
    let later := run peers options failed
    ∃ call target, dealer.calls[number]? = some call ∧ call.targets[index]? = some target ∧
      target.key = (callee, invocation) ∧ target.state.isFinished = false ∧
      (call.isCompleted = false →
        let siblings := call.siblings index
        later =
          { dealer with
            calls := dealer.calls.set number (call.settled index .error).completed.interrupted
            tracked := releasing dealer.tracked (target.key :: siblings.map Call.Target.key)
            cancelable := forgetting dealer.cancelable number call
            statistics := dealer.statistics.record [target.pattern.uri] .failure
            effects := dealer.effects ++
              .send call.caller (Rpc.error .call call.request details error payload).message
                (some number) ::
              siblings.map (interruption number .killNoWait) } ∧
        (target.key :: siblings.map Call.Target.key).Nodup ∧
        (∀ key, later.cancelable.find? key ≠ some number) ∧
        (∀ key other, other ≠ number →
          (later.cancelable.find? key = some other ↔ dealer.cancelable.find? key = some other)) ∧
        (∀ key place, place.1 ≠ number →
          (later.tracked.find? key = some place ↔ dealer.tracked.find? key = some place)) ∧
        ∀ j sibling, j ≠ index → call.targets[j]? = some sibling →
          (sibling.state = .active → sibling ∈ siblings ∧
            dealer.tracked.find? sibling.key = some (number, j) ∧
            later.tracked.find? sibling.key = none) ∧
          (sibling.state = .interrupted → sibling ∉ siblings ∧
            ∀ more, RunsFresh peers options (failed ++ more) →
              (∀ operation ∈ more,
                ¬ Answers sibling.key operation ∧ operation ≠ .closeSession sibling.callee) →
              (run peers options (failed ++ more)).tracked.find? sibling.key =
                some (number, j))) ∧
      (call.isCompleted = true →
        later =
          { dealer with
            calls := dealer.calls.set number (call.settled index .error)
            tracked := releasing dealer.tracked [target.key]
            statistics := dealer.statistics.record [target.pattern.uri] .failure }) := by
  intro dealer failed later
  have awaiting : dealer.Awaiting := awaiting_run peers options operations fresh
  have ids : dealer.ValidIds := validIds_run draws options operations valid
  obtain ⟨call, target, found, tracks, key⟩ := awaiting.tracked tracked
  have member := List.mem_of_getElem? found
  have named : Uri.isValid error = true := Rpc.isValid_of_error asked reads
  have turned : later = dealer.turn number call (.failure index details error payload) := by
    have fails := fail_eq tracks.tracked found tracks.located tracks.left details error payload
    obtain ⟨rfl, rfl⟩ := Prod.mk.inj key
    simp only [later, failed, run_concat, step, handle, reads]
    exact fails
  refine ⟨call, target, found, tracks.located, key, tracks.left, ?_, ?_⟩
  · intro opened siblings
    have sound := awaiting.sound call member
    have equal := turned.trans
      (turn_of_failure (ids.calls call member) sound opened tracks.located named)
    have released : later.tracked =
        releasing dealer.tracked (target.key :: siblings.map Call.Target.key) := by rw [equal]
    have forgets (key : Nat × Nat) (other : Nat) : later.cancelable.find? key = some other ↔
        dealer.cancelable.find? key = some other ∧
          (key = (call.caller, call.request) → other ≠ number) := by
      rw [equal]
      exact find?_forgetting
    refine ⟨equal, nodup_siblings (keys_apart_run fresh call member) tracks.located, ?_, ?_, ?_, ?_⟩
    · intro key located
      obtain ⟨before, gone⟩ := (forgets key number).mp located
      obtain ⟨holder, held, same, -⟩ := awaiting.cancelable before
      obtain rfl : call = holder := Option.some.inj (found.symm.trans held)
      exact gone same rfl
    · exact fun key other apart => (forgets key other).trans (and_iff_left fun _ => apart)
    · intro key place apart
      rw [released, find?_releasing]
      refine and_iff_left_of_imp fun before inside => ?_
      obtain ⟨j, there, -⟩ := awaiting.failed found opened tracks inside
      exact apart (congrArg Prod.fst (Option.some.inj (before.symm.trans there)))
    · intro j sibling apart located
      obtain ⟨active, interrupted⟩ := awaiting.others found opened tracks apart located
      rw [← released] at active interrupted
      refine ⟨active, fun state => ⟨(interrupted state).1, fun more again quiet => ?_⟩⟩
      have ended : later.calls[number]? =
          some (call.turn (.failure index details error payload)).call := by
        rw [turned, getElem?_turn found, if_pos rfl]
      exact tracked_run ended (Call.completed_failure opened index details error payload)
        (interrupted state).2 again quiet
  · intro done
    exact turned.trans (turn_of_late_failure done tracks.located)

theorem first_failure_ends_call_of_siblings :
    let shared : Dict := [("invoke", .text "random")]
    let operations : List Operation :=
      [.handle 0 0 1 ⟨.register, [.ofNat 1, .dict shared, .text "sum"]⟩,
        .handle 0 0 1 ⟨.register, [.ofNat 2, .dict shared, .text "sum"]⟩,
        .handle 0 0 3 ⟨.register, [.ofNat 1, .dict shared, .text "sum"]⟩,
        .handle 0 0 2
          ⟨.call, [.ofNat 7, .dict [(Dict.Key.receiveProgress, .bool true)], .text "sum"]⟩,
        .handle 0 0 3 ⟨.yield, [.ofNat 1, .dict []]⟩]
    let message : Message :=
      ⟨.error, [.ofNat 68, .ofNat 1, .dict [], .text "sum.failed", .list [.ofNat 5]]⟩
    (∀ operation ∈ operations, operation.IsValid) ∧ RunsFresh obliging {} operations ∧
    ∃ dealer later call sibling, dealer = run obliging {} operations ∧
      later = run obliging {} (operations ++ [.handle 0 0 1 message]) ∧
      dealer.tracked.find? (1, 1) = some (0, 0) ∧ dealer.calls[0]? = some call ∧
      call.isCompleted = false ∧ call.siblings 0 = [sibling] ∧ sibling.key = (1, 2) ∧
      later.effects = dealer.effects ++
        [.send 2 ⟨.error, [.ofNat 48, .ofNat 7, .dict [], .text "sum.failed", .list [.ofNat 5]]⟩
            (some 0), interruption 0 .killNoWait sibling] ∧
      later.tracked.find? (1, 2) = none := by
  intro shared operations message
  have valid : ∀ operation ∈ operations, operation.IsValid := by
    simp only [operations, List.forall_mem_cons, List.not_mem_nil, false_imp_iff, implies_true,
      and_true]
    exact ⟨rfl, rfl, rfl, rfl, rfl⟩
  have fresh : RunsFresh obliging {} operations := by decide +kernel
  have reads : Rpc.ofMessage message =
      .ok (.error .invocation 1 [] "sum.failed" ⟨some [.ofNat 5], none⟩) := rfl
  have tracked : (run obliging {} operations).tracked.find? (1, 1) = some (0, 0) := by
    decide +kernel
  have state : (run obliging {} operations).calls[0]?.any (fun call => !call.isCompleted &&
      call.caller = 2 && call.request = 7 && (call.siblings 0).map Call.Target.key = [(1, 2)]) =
        true := by
    decide +kernel
  have asked : message.IsValid := rfl
  obtain ⟨call, target, found, located, -, -, failed, -⟩ :=
    first_failure_ends_call obliging {} operations (fun _ count => isValidId_requestIdAfter count)
      valid fresh 0 0 asked reads tracked
  simp only [found, Option.any_some, Bool.and_eq_true, Bool.not_eq_true', decide_eq_true_eq]
    at state
  obtain ⟨⟨⟨opened, caller⟩, request⟩, keys⟩ := state
  obtain ⟨sibling, only, key⟩ := List.map_eq_singleton_iff.mp keys
  obtain ⟨equal, -, -, -, -, others⟩ := failed opened
  have member : sibling ∈ call.siblings 0 := by rw [only]; exact List.mem_singleton_self sibling
  obtain ⟨among, active⟩ := List.mem_filter.mp member
  obtain ⟨j, apart, there⟩ := List.mem_eraseIdx_iff_getElem?.mp among
  obtain ⟨-, -, released⟩ := (others j sibling apart there).1 (eq_of_beq active)
  rw [key] at released
  refine ⟨valid, fresh, _, _, call, sibling, rfl, rfl, tracked, found, opened, only, key, ?_,
    released⟩
  rw [equal, only, caller, request]
  rfl

end Dealer

end CallRouter
