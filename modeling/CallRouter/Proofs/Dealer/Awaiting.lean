import CallRouter.Proofs.Dealer.Replies

namespace CallRouter.Dealer

variable {peers : Peers} {operation : Operation} {dealer later : Dealer} {call : Call}

/-- The invocations of a new call are drawn once each, and none of them is tracked already. -/
def DrawsFresh (dealer later : Dealer) : Prop :=
  ∀ call ∈ later.calls.drop dealer.calls.length,
    (call.targets.map Call.Target.key).Nodup ∧
      ∀ target ∈ call.targets, dealer.tracked.find? target.key = none

instance (dealer later : Dealer) : Decidable (DrawsFresh dealer later) :=
  inferInstanceAs (Decidable (∀ call ∈ later.calls.drop dealer.calls.length,
    (call.targets.map Call.Target.key).Nodup ∧
      ∀ target ∈ call.targets, dealer.tracked.find? target.key = none))

structure Awaiting (dealer : Dealer) : Prop extends Orderly dealer where
  awaited : ∀ {number index : Nat} {call : Call} {target : Call.Target},
    dealer.calls[number]? = some call → call.isCompleted = false →
    call.targets[index]? = some target → target.state.isFinished = false →
      dealer.tracked.find? target.key = some (number, index)

theorem awaiting_initial (options : Options) : ({ options } : Dealer).Awaiting where
  toOrderly := orderly_initial options
  awaited := by simp

theorem Cause.tracks {number : Nat} {event : Call.Event}
    (cause : Cause peers dealer number call operation event) {index : Nat}
    (about : event.index? = some index) : ∃ target, dealer.Tracks number call index target := by
  cases cause with
  | result tracks reads flag => exact ⟨_, Option.some.inj about ▸ tracks⟩
  | failure tracks reads => exact ⟨_, Option.some.inj about ▸ tracks⟩
  | loss tracks => exact ⟨_, Option.some.inj about ▸ tracks⟩
  | _ => simp [Call.Event.index?] at about

section Turn

variable {number : Nat} {event : Call.Event}

theorem released_tracked (awaiting : dealer.Awaiting)
    (found : dealer.calls[number]? = some call)
    (cause : Cause peers dealer number call operation event) {key : Nat × Nat}
    (member : key ∈ (call.turn event).released) :
    ∃ index, dealer.tracked.find? key = some (number, index) ∧
      ((call.turn event).call.isCompleted = true ∨
        ∀ after, (call.turn event).call.targets[index]? = some after →
          after.state.isFinished = true) := by
  rcases Call.released_cases cause.admits member with
    ⟨index, about, subject⟩ | ⟨opened, ended, index, target, located, active, rfl⟩
  · obtain ⟨target, tracks⟩ := cause.tracks about
    rw [Call.keyAt_of_found tracks.located, List.mem_singleton] at subject
    refine ⟨index, subject ▸ tracks.tracked, .inr ?_⟩
    intro after there
    exact Call.turn_finishes about there
  · have left : target.state.isFinished = false := by simp [active, Call.Target.State.isFinished]
    exact ⟨index, awaiting.awaited found opened located left, .inl ended⟩

theorem awaited_turn (awaiting : dealer.Awaiting) (found : dealer.calls[number]? = some call)
    (cause : Cause peers dealer number call operation event) {other index : Nat} {holder : Call}
    {target : Call.Target} (held : (dealer.turn number call event).calls[other]? = some holder)
    (opened : holder.isCompleted = false) (located : holder.targets[index]? = some target)
    (left : target.state.isFinished = false) :
    (dealer.turn number call event).tracked.find? target.key = some (other, index) := by
  rw [getElem?_turn found] at held
  apply find?_releasing.mpr
  by_cases here : number = other
  · subst here
    obtain rfl : (call.turn event).call = holder := by simpa using held
    obtain ⟨before, there, same, less⟩ := Call.advances_turn call event index target located
    have key : before.key = target.key := by simpa using congrArg Call.Target.key same
    have still := Call.opened_of_turn cause.admits opened
    have unfinished := Call.Target.State.unfinished_of_rank less left
    have tracked := awaiting.awaited found still there unfinished
    rw [key] at tracked
    -- A release of this very invocation would mean that the call or the target is done with.
    refine ⟨tracked, fun member => ?_⟩
    obtain ⟨place, placed, gone⟩ := released_tracked awaiting found cause member
    obtain rfl : index = place := by
      rw [tracked] at placed
      exact (Prod.mk.inj (Option.some.inj placed)).2
    rcases gone with ended | finished
    · simp [ended] at opened
    · simp [finished target located] at left
  · rw [if_neg here] at held
    have tracked := awaiting.awaited held opened located left
    refine ⟨tracked, fun member => ?_⟩
    obtain ⟨place, placed, -⟩ := released_tracked awaiting found cause member
    rw [tracked] at placed
    exact here (Prod.mk.inj (Option.some.inj placed)).1.symm

end Turn

theorem awaiting_aside (awaiting : dealer.Awaiting) (aside : dealer.Aside later) :
    later.Awaiting where
  toOrderly := orderly_aside awaiting.toOrderly aside
  awaited := by
    intro number index call target found opened located left
    rw [aside.tracked]
    exact awaiting.awaited (aside.calls ▸ found) opened located left

theorem awaiting_move (awaiting : dealer.Awaiting) (move : Move peers operation dealer later) :
    later.Awaiting := by
  have orderly := orderly_move awaiting.toOrderly move
  cases move with
  | aside aside => exact awaiting_aside awaiting aside
  | turn found cause => exact { toOrderly := orderly, awaited := awaited_turn awaiting found cause }
  | retire closing => exact { toOrderly := orderly, awaited := awaiting.awaited }

theorem awaiting_moves (awaiting : dealer.Awaiting) (moves : Moves peers operation dealer later) :
    later.Awaiting := by
  induction moves with
  | refl => exact awaiting
  | tail _ move ih => exact awaiting_move ih move

theorem Dispatches.cases (dispatches : Dispatches peers dealer operation call later) {number : Nat}
    {other : Call} (found : later.calls[number]? = some other) :
    dealer.calls[number]? = some other ∨ number = dealer.calls.length ∧ other = call := by
  rw [dispatches.calls] at found
  by_cases before : number < dealer.calls.length
  · rw [List.getElem?_append_left before] at found
    exact .inl found
  · have last : number = dealer.calls.length := by
      have bound := (List.getElem?_eq_some_iff.mp found).1
      simp only [List.length_append, List.length_singleton] at bound
      omega
    subst last
    exact .inr ⟨rfl, by simpa using found.symm⟩

theorem awaiting_dispatch (awaiting : dealer.Awaiting) (fresh : DrawsFresh dealer later)
    (dispatches : Dispatches peers dealer operation call later) : later.Awaiting where
  toOrderly := orderly_dispatch awaiting.toOrderly dispatches
  awaited := by
    obtain ⟨apart, untracked⟩ := fresh call (by simp [dispatches.calls])
    intro number index other target found still located left
    rw [dispatches.tracked]
    rcases dispatches.cases found with before | ⟨rfl, rfl⟩
    · have tracked := awaiting.awaited before still located left
      rw [find?_tracking_of_notMem, tracked]
      intro member
      obtain ⟨drawn, among, same⟩ := List.mem_map.mp member
      have absent := untracked drawn among
      rw [same, tracked] at absent
      cases absent
    · have tracked : (tracking dealer.calls.length 0 other.targets dealer.tracked).find?
          target.key = some (dealer.calls.length, 0 + index) :=
        find?_tracking_of_located apart located
      rw [tracked, Nat.zero_add]

theorem awaiting_step (awaiting : dealer.Awaiting)
    (fresh : DrawsFresh dealer (dealer.step peers operation)) :
    (dealer.step peers operation).Awaiting := by
  rcases step_cases awaiting.toLinked peers operation with moves | ⟨call, dispatches⟩
  · exact awaiting_moves awaiting moves
  · exact awaiting_dispatch awaiting fresh dispatches

theorem Awaiting.untracked (awaiting : dealer.Awaiting) {number : Nat}
    (found : dealer.calls[number]? = some call)
    (untracked : ∀ key index, dealer.tracked.find? key ≠ some (number, index)) :
    call.isCompleted = true := by
  by_contra opened
  have opened : call.isCompleted = false := by simpa using opened
  have sound := awaiting.sound call (List.mem_of_getElem? found)
  have positive : 0 < call.unfinished := by
    rw [← sound.balanced]
    exact sound.awaited opened
  obtain ⟨target, member, left⟩ := List.countP_pos_iff.mp positive
  obtain ⟨index, located⟩ := List.mem_iff_getElem?.mp member
  exact untracked _ index (awaiting.awaited found opened located (by simpa using left))

def RunsFresh (peers : Peers) (options : Options) (operations : List Operation) : Prop :=
  ∀ count < operations.length, DrawsFresh (run peers options (operations.take count))
    (run peers options (operations.take (count + 1)))

instance (peers : Peers) (options : Options) (operations : List Operation) :
    Decidable (RunsFresh peers options operations) :=
  inferInstanceAs (Decidable (∀ count < operations.length,
    DrawsFresh (run peers options (operations.take count))
      (run peers options (operations.take (count + 1)))))

theorem steps_concat (related : Dealer → Dealer → Prop) {options : Options}
    {operations : List Operation}
    (steps : ∀ count < (operations ++ [operation]).length,
      related (run peers options ((operations ++ [operation]).take count))
        (run peers options ((operations ++ [operation]).take (count + 1)))) :
    (∀ count < operations.length, related (run peers options (operations.take count))
        (run peers options (operations.take (count + 1)))) ∧
      related (run peers options operations)
        ((run peers options operations).step peers operation) := by
  constructor
  · intro count bound
    have step := steps count (by simp; omega)
    rwa [List.take_append_of_le_length (by omega), List.take_append_of_le_length (by omega)] at step
  · have step := steps operations.length (by simp)
    rwa [List.take_append_of_le_length (by omega), List.take_length,
      List.take_of_length_le (by simp), run_concat] at step

theorem runsFresh_concat {options : Options} {operations : List Operation}
    (fresh : RunsFresh peers options (operations ++ [operation])) :
    RunsFresh peers options operations ∧
      DrawsFresh (run peers options operations)
        ((run peers options operations).step peers operation) :=
  steps_concat DrawsFresh fresh

theorem awaiting_run (peers : Peers) (options : Options) (operations : List Operation)
    (fresh : RunsFresh peers options operations) : (run peers options operations).Awaiting := by
  induction operations using List.reverseRecOn with
  | nil => exact awaiting_initial options
  | append_singleton operations operation ih =>
    obtain ⟨earlier, drawn⟩ := runsFresh_concat fresh
    rw [run_concat]
    exact awaiting_step (ih earlier) drawn

end CallRouter.Dealer
