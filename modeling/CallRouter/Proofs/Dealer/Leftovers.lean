import CallRouter.Proofs.Call.Notices
import CallRouter.Proofs.Dealer.Resting
import CallRouter.Proofs.Dealer.Teardown

namespace CallRouter.Dealer

open Relation

variable {peers : Peers} {operation : Operation} {dealer later : Dealer} {session : Nat}
  {number index : Nat} {call : Call}

structure Watched (dealer : Dealer) : Prop extends Orderly dealer where
  canceled : ∀ {number index : Nat} {call : Call} {target : Call.Target},
    dealer.calls[number]? = some call → dealer.Tracks number call index target →
    target.state = .interrupted → call.cancelMode ≠ none

theorem watched_initial (options : Options) : ({ options } : Dealer).Watched where
  toOrderly := orderly_initial options
  canceled := by simp

theorem canceled_turn {event : Call.Event} (watched : dealer.Watched)
    (found : dealer.calls[number]? = some call)
    (cause : Cause peers dealer number call operation event) {target : Call.Target}
    (tracks : (dealer.turn number call event).Tracks number (call.turn event).call index target)
    (state : target.state = .interrupted) : (call.turn event).call.cancelMode ≠ none := by
  obtain ⟨before, kept⟩ := find?_releasing.mp tracks.tracked
  rcases Call.interrupted_turn cause.admits tracks.located state with already | rfl | released
  · have canceled := watched.canceled found ⟨before, already, tracks.left⟩ state
    rcases Call.cancelMode_turn call event with same | ⟨mode, _, chosen⟩
    · rwa [same]
    · simp [chosen]
  · simp [Call.turn, Call.interrupted, Call.begun, Call.setCancelMode]
  · exact absurd released kept

theorem watched_move (watched : dealer.Watched) (move : Move peers operation dealer later) :
    later.Watched where
  toOrderly := orderly_move watched.toOrderly move
  canceled := by
    intro other index holder target held tracks state
    cases move with
    | aside aside =>
      rw [aside.calls] at held
      have tracked := aside.tracked ▸ tracks.tracked
      exact watched.canceled held ⟨tracked, tracks.located, tracks.left⟩ state
    | @turn number call event found cause =>
      rw [getElem?_turn found] at held
      by_cases here : number = other
      · subst here
        obtain rfl : (call.turn event).call = holder := by simpa using held
        exact canceled_turn watched found cause tracks state
      · rw [if_neg here] at held
        have tracked := (find?_releasing.mp tracks.tracked).1
        exact watched.canceled held ⟨tracked, tracks.located, tracks.left⟩ state
    | retire closing =>
      exact watched.canceled held ⟨tracks.tracked, tracks.located, tracks.left⟩ state

theorem watched_moves (watched : dealer.Watched) (moves : Moves peers operation dealer later) :
    later.Watched := by
  induction moves with
  | refl => exact watched
  | tail _ move ih => exact watched_move ih move

theorem watched_dispatch (watched : dealer.Watched)
    (dispatches : Dispatches peers dealer operation call later) : later.Watched where
  toOrderly := orderly_dispatch watched.toOrderly dispatches
  canceled := by
    intro other index holder target held tracks state
    rcases dispatches.cases held with before | ⟨rfl, rfl⟩
    · refine watched.canceled before ⟨?_, tracks.located, tracks.left⟩ state
      have tracked := tracks.tracked
      rw [dispatches.tracked] at tracked
      -- What the dispatch itself tracks belongs to the new call.
      rcases find?_tracking_cases tracked with ⟨_, _, _, _, place⟩ | old
      · have bound := (List.getElem?_eq_some_iff.mp before).1
        have new := (Prod.mk.inj place).1
        omega
      · exact old
    · have active := dispatches.fresh.active target (List.mem_of_getElem? tracks.located)
      simp [active] at state

theorem watched_run (peers : Peers) (options : Options) (operations : List Operation) :
    (run peers options operations).Watched := by
  induction operations using List.reverseRecOn with
  | nil => exact watched_initial options
  | append_singleton operations operation ih =>
    rw [run_concat]
    rcases step_cases ih.toLinked peers operation with moves | ⟨call, dispatches⟩
    · exact watched_moves ih moves
    · exact watched_dispatch ih dispatches

theorem cancelMode_closing (moves : Moves peers (.closeSession session) dealer later)
    (found : dealer.calls[number]? = some call) :
    ∃ after, later.calls[number]? = some after ∧ after.cancelMode = call.cancelMode := by
  induction moves with
  | refl => exact ⟨call, found, rfl⟩
  | tail _ move ih =>
    obtain ⟨between, there, same⟩ := ih
    cases move with
    | aside aside => exact ⟨between, aside.calls ▸ there, same⟩
    | retire closing => exact ⟨between, there, same⟩
    | @turn other holder event held cause =>
      rw [getElem?_turn held]
      by_cases here : other = number
      · subst here
        obtain rfl : holder = between := Option.some.inj (held.symm.trans there)
        refine ⟨_, if_pos rfl, ?_⟩
        rcases Call.cancelMode_turn holder event with kept | ⟨mode, rfl, _⟩
        · exact kept.trans same
        · cases cause
      · exact ⟨between, by rw [if_neg here, there], same⟩

theorem Closes.tracked_before (linked : dealer.Linked) (closes : dealer.Closes session later)
    {key : Nat × Nat} (tracked : later.tracked.find? key = some (number, index))
    (found : later.calls[number]? = some call) (own : call.caller = session) :
    dealer.tracked.find? key = some (number, index) ∧ key.1 ≠ session ∧
      call.isCompleted = true := by
  cases closes with
  | @close order made all =>
    have abandonments := order.abandonments all
    have before := (less_of_abandonments abandonments).1 _ _ tracked
    obtain ⟨foreign, apart⟩ := order.tracked_severed_iff.mp before
    have severing : Moves obliging (.closeSession session) dealer order.severed :=
      order.moves linked
    have abandoning : Moves obliging (.closeSession session) order.severed _ :=
      moves_abandonments abandonments
    obtain ⟨holder, target, held, -, -⟩ := (linked_moves linked severing).tracked before
    obtain ⟨after, there, same, -⟩ := persists_moves abandoning held
    obtain rfl : call = after := Option.some.inj (found.symm.trans there)
    have caller : call.caller = holder.caller := by simpa using congrArg Call.caller same
    have listed : number ∈ made :=
      all.mem_iff.mpr (mem_madeBy.mpr ⟨key, index, holder, before, held, caller ▸ own⟩)
    exact ⟨foreign, apart, loseCalls_complete made (.inl listed) call found⟩

theorem canceled_cases (sound : call.Sound) (canceled : call.cancelMode ≠ none)
    {target : Call.Target} (member : target ∈ call.targets)
    (left : target.state.isFinished = false) :
    call.isCompleted = true ∧ call.cancelMode = some .skip ∧ target.state = .active ∨
      target.state = .interrupted := by
  cases reached : target.state with
  | interrupted => exact .inr rfl
  | finished outcome => simp [reached, Call.Target.State.isFinished] at left
  | active =>
    left
    cases state : call.state with
    | pending => exact absurd (sound.pending state).1 canceled
    | canceling => exact absurd reached ((sound.canceling state).2 target member)
    | completed =>
      refine ⟨by simp [Call.isCompleted, state], ?_, rfl⟩
      by_contra mode
      exact sound.completed state mode target member reached

theorem leftover_cases (watched : dealer.Watched) (closes : dealer.Closes session later)
    {key : Nat × Nat} (tracked : later.tracked.find? key = some (number, index))
    (found : later.calls[number]? = some call) (done : call.isCompleted = true) :
    ∃ before target, dealer.calls[number]? = some before ∧
      before.targets[index]? = some target ∧ before.cancelMode ≠ none ∧
      (before.isCompleted = true ∧ before.cancelMode = some .skip ∧ target.state = .active ∨
        target.state = .interrupted) := by
  have moves : Moves obliging (.closeSession session) dealer later :=
    closes.moves watched.toLinked
  have after := watched_moves watched moves
  obtain ⟨holder, target, held, tracks, -⟩ := after.tracked tracked
  obtain rfl : call = holder := Option.some.inj (found.symm.trans held)
  have canceled : call.cancelMode ≠ none := by
    by_cases active : target.state = .active
    · intro none
      have sound := after.sound call (List.mem_of_getElem? found)
      have state : call.state = .completed := by simpa [Call.isCompleted] using done
      have member := List.mem_of_getElem? tracks.located
      exact sound.completed state (by simp [none]) target member active
    · have state : target.state = .interrupted := by
        have left := tracks.left
        cases reached : target.state <;> simp_all [Call.Target.State.isFinished]
      exact after.canceled found tracks state
  -- The call was canceled before the session closed, and the target was as far then.
  have bound := (List.getElem?_eq_some_iff.mp found).1
  rw [length_moves moves] at bound
  have there := List.getElem?_eq_getElem bound
  obtain ⟨same, located, _, _, advances⟩ := persists_moves moves there
  obtain rfl : call = same := Option.some.inj (found.symm.trans located)
  obtain ⟨same, located, mode⟩ := cancelMode_closing moves there
  obtain rfl : call = same := Option.some.inj (found.symm.trans located)
  obtain ⟨earlier, placed, _, less⟩ := advances index target tracks.located
  rw [mode] at canceled
  have sound := watched.sound _ (List.mem_of_getElem? there)
  have left := Call.Target.State.unfinished_of_rank less tracks.left
  exact ⟨_, earlier, there, placed, canceled,
    canceled_cases sound canceled (List.mem_of_getElem? placed) left⟩

theorem tracked_of_abandonments (awaiting : dealer.Awaiting)
    (abandonments : ReflTransGen (Abandonment session) dealer later) {key : Nat × Nat}
    (tracked : dealer.tracked.find? key = some (number, index))
    (resting : dealer.Resting number index) :
    later.tracked.find? key = some (number, index) := by
  induction abandonments with
  | refl => exact tracked
  | @tail middle later before abandonment ih =>
    have moves : Moves obliging (.closeSession session) dealer middle := moves_abandonments before
    have current := awaiting_moves awaiting moves
    have rests := resting.persists (persists_moves moves)
    cases abandonment with
    | abandon found opened made =>
      refine find?_releasing.mpr ⟨ih, fun member => ?_⟩
      obtain ⟨place, target, located, active, rfl⟩ := Call.mem_activeTargets member
      have left : target.state.isFinished = false := by
        simp [active, Call.Target.State.isFinished]
      have awaited := current.awaited found opened located left
      exact rests.apart found opened located active (Option.some.inj (awaited.symm.trans ih))

theorem leftover_stays (awaiting : dealer.Awaiting) (closes : dealer.Closes session later)
    {key : Nat × Nat} (tracked : dealer.tracked.find? key = some (number, index))
    (apart : key.1 ≠ session) (resting : dealer.Resting number index) :
    later.tracked.find? key = some (number, index) := by
  cases closes with
  | close order all =>
    have severing : Moves obliging (.closeSession session) dealer order.severed :=
      order.moves awaiting.toLinked
    exact tracked_of_abandonments (awaiting_moves awaiting severing) (order.abandonments all)
      (order.tracked_severed_iff.mpr ⟨tracked, apart⟩) (resting.persists (persists_moves severing))

/--
Whatever is still awaited on behalf of a session that closed is awaited of another session, and
belongs to a call that it had canceled: by a skip, which left the target alone, or after the target
was interrupted. As long as invocations are drawn that are not in use, every such target stays.
-/
theorem closed_session_leaves_canceled_calls (peers : Peers) (options : Options)
    (operations : List Operation) {session : Nat} {later : Dealer}
    (closes : (run peers options operations).Closes session later) :
    let dealer := run peers options operations
    (∀ key number index call, later.tracked.find? key = some (number, index) →
      later.calls[number]? = some call → call.caller = session →
        dealer.tracked.find? key = some (number, index) ∧ key.1 ≠ session ∧
        ∃ before target, dealer.calls[number]? = some before ∧
          before.targets[index]? = some target ∧ before.cancelMode ≠ none ∧
          (before.isCompleted = true ∧ before.cancelMode = some .skip ∧ target.state = .active ∨
            target.state = .interrupted)) ∧
    (RunsFresh peers options operations →
      ∀ key number index call target, dealer.tracked.find? key = some (number, index) →
        key.1 ≠ session → dealer.calls[number]? = some call →
        call.targets[index]? = some target →
        call.isCompleted = true ∨ target.state = .interrupted →
          later.tracked.find? key = some (number, index)) := by
  intro dealer
  constructor
  · intro key number index call tracked found own
    have watched := watched_run peers options operations
    obtain ⟨before, apart, done⟩ := closes.tracked_before watched.toLinked tracked found own
    exact ⟨before, apart, leftover_cases watched closes tracked found done⟩
  · intro fresh key number index call target tracked apart found located rests
    have awaiting := awaiting_run peers options operations fresh
    refine leftover_stays awaiting closes tracked apart ⟨call, target, found, located, ?_⟩
    exact rests.imp_right fun interrupted => by simp [interrupted]

/-- A call that its caller canceled by a skip is still awaited when the caller has closed. -/
theorem skipped_call_outlives_caller :
    let operations : List Operation :=
      [.handle 0 0 1 ⟨.register, [.ofNat 1, .dict [], .text "sum"]⟩,
        .handle 0 0 2 ⟨.call, [.ofNat 1, .dict [], .text "sum"]⟩,
        .handle 0 0 2 ⟨.cancel, [.ofNat 1, .dict [(Dict.Key.mode, .text "skip")]]⟩]
    let later := (run obliging {} operations).closeSession 2
    (∀ operation ∈ operations, operation.IsValid) ∧
      later.tracked.find? (1, 1) = some (0, 0) ∧
      (later.calls[0]?.map Call.caller) = some 2 := by
  intro operations later
  refine ⟨?_, by decide +kernel, by decide +kernel⟩
  simp only [operations, List.forall_mem_cons, List.not_mem_nil, false_imp_iff, implies_true,
    and_true]
  exact ⟨rfl, rfl, rfl⟩

theorem closed_session_leaves_killed_call :
    let operations : List Operation :=
      [.handle 0 0 1 ⟨.register, [.ofNat 1, .dict [], .text "sum"]⟩,
        .handle 0 0 2 ⟨.call, [.ofNat 1, .dict [], .text "sum"]⟩,
        .handle 0 0 2 ⟨.cancel, [.ofNat 1, .dict [(Dict.Key.mode, .text "kill")]]⟩]
    let dealer := run obliging {} operations
    dealer.Closes 2 (dealer.closeSession 2) ∧ RunsFresh obliging {} operations ∧
      (dealer.closeSession 2).tracked.find? (1, 1) = some (0, 0) := by
  intro operations dealer
  have closes := closes_closeSession dealer 2
  have fresh : RunsFresh obliging {} operations := by decide +kernel
  obtain ⟨-, stays⟩ := closed_session_leaves_canceled_calls obliging {} operations closes
  let target : Call.Target :=
    { registration := 2, callee := 1, pattern := ⟨.exact, "sum"⟩, invocation := 1
      progressive := false, state := .interrupted }
  let call : Call :=
    { caller := 2, request := 1, procedure := "sum", options := {}, started := 0
      targets := [target], state := .canceling, cancelMode := some .kill }
  have tracked : dealer.tracked.find? (1, 1) = some (0, 0) := by decide +kernel
  have found : dealer.calls[0]? = some call := by decide +kernel
  exact ⟨closes, fresh,
    stays fresh (1, 1) 0 0 call target tracked (by decide) found rfl (.inr rfl)⟩

end CallRouter.Dealer
