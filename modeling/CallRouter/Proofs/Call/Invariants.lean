import CallRouter.Proofs.Call.Turn

namespace CallRouter.Call

theorem getElem?_settled (call : Call) (index : Nat) (outcome : Outcome) (j : Nat) :
    (call.settled index outcome).targets[j]? =
      if index = j then call.targets[j]?.map (Target.finished outcome) else call.targets[j]? := by
  simp only [settled, List.getElem?_modify]
  split <;> simp

theorem getElem?_interrupted (call : Call) (j : Nat) :
    call.interrupted.targets[j]? = call.targets[j]?.map Target.interrupted := by
  simp [interrupted]

theorem unfinished_settled {call : Call} {index : Nat} {target : Target}
    (found : call.targets[index]? = some target) (left : target.state.isFinished = false)
    (outcome : Outcome) : (call.settled index outcome).unfinished = call.unfinished - 1 := by
  obtain ⟨bound, located⟩ := List.getElem?_eq_some_iff.mp found
  rw [unfinished, settled, ← set_eq_modify found, List.countP_set bound]
  simp [located, left, unfinished]

@[simp] theorem unfinished_interrupted (call : Call) :
    call.interrupted.unfinished = call.unfinished := by
  simp [unfinished, interrupted, List.countP_map, Function.comp_def]

@[simp] theorem unfinished_completed (call : Call) : call.completed.unfinished = call.unfinished :=
  rfl

@[simp] theorem remaining_completed (call : Call) : call.completed.remaining = call.remaining := rfl

@[simp] theorem remaining_interrupted (call : Call) :
    call.interrupted.remaining = call.remaining := rfl

def Admits (call : Call) : Event → Prop
  | .progress _ | .timeout | .abandonment => call.isCompleted = false
  | .result index .. | .failure index .. | .loss index =>
    ∃ target, call.targets[index]? = some target ∧ target.state.isFinished = false
  | .cancellation mode => call.isCompleted = false ∧ (mode = .kill → call.state = .pending)

def Event.index? : Event → Option Nat
  | .result index .. | .failure index .. | .loss index => some index
  | _ => none

theorem settled_balanced {call : Call} {index : Nat}
    (awaits : ∃ target, call.targets[index]? = some target ∧ target.state.isFinished = false)
    (balanced : call.remaining = call.unfinished) (outcome : Outcome) :
    (call.settled index outcome).remaining = (call.settled index outcome).unfinished := by
  obtain ⟨target, found, left⟩ := awaits
  rw [unfinished_settled found left, ← balanced]
  rfl

theorem turn_balanced {call : Call} {event : Event} (admits : call.Admits event)
    (balanced : call.remaining = call.unfinished) :
    (call.turn event).call.remaining = (call.turn event).call.unfinished := by
  cases event with
  | progress payload => exact balanced
  | result index payload elapsed =>
    have settled := settled_balanced admits balanced .result
    simp only [turn]
    split <;> exact settled
  | failure index details error payload =>
    have settled := settled_balanced admits balanced .error
    simp only [turn]
    split
    · exact settled
    · split
      · exact settled
      · simpa [stop] using settled
  | loss index =>
    have settled := settled_balanced admits balanced .error
    simp only [turn]
    split <;> exact settled
  | cancellation mode =>
    cases mode with
    | skip => exact balanced
    | kill => exact balanced.trans (unfinished_interrupted call.begun).symm
    | killNoWait =>
      exact balanced.trans (unfinished_interrupted (call.setCancelMode .killNoWait)).symm
  | timeout => simpa [turn, stop] using balanced
  | abandonment => simpa [turn, stop] using balanced

theorem settled_target {call : Call} {index j : Nat} {target : Target}
    (found : call.targets[j]? = some target) (outcome : Outcome)
    (kept : target.key ∉ call.keyAt index) :
    (call.settled index outcome).targets[j]? = some target := by
  have apart : index ≠ j := by
    rintro rfl
    simp [keyAt_of_found found] at kept
  rw [getElem?_settled, if_neg apart, found]

theorem interrupted_target (call : Call) {j : Nat} {target : Target}
    (found : call.targets[j]? = some target) (left : target.state.isFinished = false) :
    ∃ later, call.interrupted.targets[j]? = some later ∧ later.key = target.key ∧
      later.state.isFinished = false :=
  ⟨target.interrupted, by simp [getElem?_interrupted, found], by simp, by simpa using left⟩

theorem turn_target {call : Call} (event : Event) {j : Nat} {target : Target}
    (found : call.targets[j]? = some target) (left : target.state.isFinished = false)
    (kept : target.key ∉ (call.turn event).released) :
    ∃ later, (call.turn event).call.targets[j]? = some later ∧ later.key = target.key ∧
      later.state.isFinished = false := by
  cases event with
  | progress payload => exact ⟨target, found, rfl, left⟩
  | result index payload elapsed =>
    have same := settled_target found .result kept
    refine ⟨target, ?_, rfl, left⟩
    simp only [turn]
    split <;> exact same
  | failure index details error payload =>
    have apart : target.key ∉ call.keyAt index := by
      intro member
      apply kept
      simp only [turn]
      split
      · exact member
      · split
        · exact member
        · exact List.mem_append_left _ member
    have same := settled_target found .error apart
    simp only [turn]
    split
    · exact ⟨target, same, rfl, left⟩
    · split
      · exact ⟨target, same, rfl, left⟩
      · exact interrupted_target (call.settled index .error).completed same left
  | loss index =>
    have same := settled_target found .error kept
    refine ⟨target, ?_, rfl, left⟩
    simp only [turn]
    split <;> exact same
  | cancellation mode =>
    cases mode with
    | skip => exact ⟨target, found, rfl, left⟩
    | kill => exact interrupted_target call.begun found left
    | killNoWait => exact interrupted_target (call.setCancelMode .killNoWait).completed found left
  | timeout => exact interrupted_target call.completed found left
  | abandonment => exact interrupted_target call.completed found left

def Target.origin (target : Target) : Target := { target with state := .active }

@[simp] theorem Target.key_origin (target : Target) : target.origin.key = target.key := rfl

def origin (call : Call) : Call :=
  { call with
    targets := call.targets.map Target.origin, state := .pending, cancelMode := none
    remaining := call.targets.length }

@[simp] theorem caller_origin (call : Call) : call.origin.caller = call.caller := rfl

@[simp] theorem request_origin (call : Call) : call.origin.request = call.request := rfl

@[simp] theorem options_origin (call : Call) : call.origin.options = call.options := rfl

theorem Target.origin_interrupted (target : Target) : target.interrupted.origin = target.origin := by
  unfold interrupted
  split <;> rfl

@[simp] theorem origin_interrupted (call : Call) : call.interrupted.origin = call.origin := by
  simp [origin, interrupted, Function.comp_def, Target.origin_interrupted]

@[simp] theorem origin_settled (call : Call) (index : Nat) (outcome : Outcome) :
    (call.settled index outcome).origin = call.origin := by
  have same : (call.targets.modify index (Target.finished outcome)).map Target.origin =
      call.targets.map Target.origin := by
    apply List.ext_getElem?
    intro j
    rw [List.getElem?_map, List.getElem?_map, List.getElem?_modify]
    by_cases here : index = j
    · cases call.targets[j]? <;> simp [here, Target.finished, Target.origin]
    · simp [here]
  simp [origin, settled, same]

theorem origin_turn (call : Call) (event : Event) : (call.turn event).call.origin = call.origin := by
  have stopped (before : Call) : before.completed.interrupted.origin = before.origin :=
    origin_interrupted before.completed
  cases event with
  | progress payload => rfl
  | result index payload elapsed =>
    simp only [turn]
    split <;> exact origin_settled call index .result
  | failure index details error payload =>
    simp only [turn]
    split
    · exact origin_settled call index .error
    · split
      · exact origin_settled call index .error
      · exact (stopped _).trans (origin_settled call index .error)
  | loss index =>
    simp only [turn]
    split <;> exact origin_settled call index .error
  | cancellation mode =>
    cases mode with
    | skip => rfl
    | kill => exact origin_interrupted call.begun
    | killNoWait => exact stopped (call.setCancelMode .killNoWait)
  | timeout => exact stopped call
  | abandonment => exact stopped call

theorem keys_of_origin {call after : Call} (same : after.origin = call.origin) :
    after.targets.map Target.key = call.targets.map Target.key := by
  have keys (call : Call) : call.targets.map Target.key = call.origin.targets.map Target.key := by
    simp [origin, Function.comp_def]
  rw [keys, same, ← keys]

@[simp] theorem caller_turn (call : Call) (event : Event) :
    (call.turn event).call.caller = call.caller := by
  rw [← caller_origin, origin_turn, caller_origin]

@[simp] theorem request_turn (call : Call) (event : Event) :
    (call.turn event).call.request = call.request := by
  rw [← request_origin, origin_turn, request_origin]

@[simp] theorem options_turn (call : Call) (event : Event) :
    (call.turn event).call.options = call.options := by
  rw [← options_origin, origin_turn, options_origin]

theorem turn_isCompleted {call : Call} {event : Event} (admits : call.Admits event)
    (done : call.isCompleted = true) : (call.turn event).call.isCompleted = true := by
  cases event with
  | result index payload elapsed =>
    simp only [turn]
    split
    · exact done
    · rfl
  | failure index details error payload =>
    simp only [turn, done]
    exact done
  | loss index =>
    simp only [turn]
    split
    · exact done
    · rfl
  | cancellation mode => exact absurd (done.symm.trans admits.1) (by simp)
  | _ => exact absurd (done.symm.trans admits) (by simp)

theorem opened_of_turn {call : Call} {event : Event} (admits : call.Admits event)
    (opened : (call.turn event).call.isCompleted = false) : call.isCompleted = false := by
  cases done : call.isCompleted with
  | false => rfl
  | true => simp [turn_isCompleted admits done] at opened

def Target.State.rank : Target.State → Nat
  | active => 0
  | interrupted => 1
  | finished _ => 2

theorem Target.State.unfinished_of_rank {before after : Target.State}
    (less : before.rank ≤ after.rank) (left : after.isFinished = false) :
    before.isFinished = false := by
  cases before with
  | finished outcome => cases after <;> simp_all [rank, isFinished]
  | _ => rfl

def Advances (call later : Call) : Prop :=
  ∀ (j : Nat) (after : Target), later.targets[j]? = some after →
    ∃ before, call.targets[j]? = some before ∧ before.origin = after.origin ∧
      before.state.rank ≤ after.state.rank

theorem advances_refl (call : Call) : call.Advances call := fun _ after found =>
  ⟨after, found, rfl, Nat.le_refl _⟩

theorem advances_trans {call later last : Call} (first : call.Advances later)
    (second : later.Advances last) : call.Advances last := by
  intro j after found
  obtain ⟨middle, between, same, less⟩ := second j after found
  obtain ⟨before, located, equal, below⟩ := first j middle between
  exact ⟨before, located, equal.trans same, Nat.le_trans below less⟩

theorem advances_settled (call : Call) (index : Nat) (outcome : Outcome) :
    call.Advances (call.settled index outcome) := by
  intro j after found
  rw [getElem?_settled] at found
  split at found
  · obtain ⟨before, located, rfl⟩ := Option.map_eq_some_iff.mp found
    refine ⟨before, located, rfl, ?_⟩
    cases before.state <;> simp [Target.State.rank, Target.finished]
  · exact ⟨after, found, rfl, Nat.le_refl _⟩

theorem advances_interrupted (call : Call) : call.Advances call.interrupted := by
  intro j after found
  rw [getElem?_interrupted] at found
  obtain ⟨before, located, rfl⟩ := Option.map_eq_some_iff.mp found
  refine ⟨before, located, (Target.origin_interrupted before).symm, ?_⟩
  unfold Target.interrupted
  split
  · rename_i active
    simp [active, Target.State.rank]
  · exact Nat.le_refl _

theorem advances_turn (call : Call) (event : Event) : call.Advances (call.turn event).call := by
  cases event with
  | progress payload => exact advances_refl call
  | result index payload elapsed =>
    simp only [turn]
    split <;> exact advances_settled call index .result
  | failure index details error payload =>
    have settled := advances_settled call index .error
    simp only [turn]
    split
    · exact settled
    · split
      · exact settled
      · exact advances_trans settled (advances_interrupted (call.settled index .error))
  | loss index =>
    simp only [turn]
    split <;> exact advances_settled call index .error
  | cancellation mode =>
    cases mode with
    | skip => exact advances_refl call
    | kill => exact advances_interrupted call
    | killNoWait => exact advances_interrupted call
  | timeout => exact advances_interrupted call
  | abandonment => exact advances_interrupted call

structure Sound (call : Call) : Prop where
  balanced : call.remaining = call.unfinished
  awaited : call.isCompleted = false → 1 ≤ call.remaining
  pending : call.state = .pending →
    call.cancelMode = none ∧ ∀ target ∈ call.targets, target.state ≠ .interrupted
  canceling : call.state = .canceling →
    call.cancelMode = some .kill ∧ ∀ target ∈ call.targets, target.state ≠ .active
  completed : call.state = .completed → call.cancelMode ≠ some .skip →
    ∀ target ∈ call.targets, target.state ≠ .active

theorem mem_settled {call : Call} {index : Nat} {outcome : Outcome} {target : Target}
    (member : target ∈ (call.settled index outcome).targets) :
    target ∈ call.targets ∨ target.state = .finished outcome := by
  obtain ⟨j, found⟩ := List.mem_iff_getElem?.mp member
  rw [getElem?_settled] at found
  split at found
  · obtain ⟨before, _, rfl⟩ := Option.map_eq_some_iff.mp found
    exact .inr rfl
  · exact .inl (List.mem_of_getElem? found)

theorem settled_sound {call : Call} {index : Nat}
    (awaits : ∃ target, call.targets[index]? = some target ∧ target.state.isFinished = false)
    (sound : call.Sound) (outcome : Outcome)
    (more : call.isCompleted = false → 0 < (call.settled index outcome).remaining) :
    (call.settled index outcome).Sound where
  balanced := settled_balanced awaits sound.balanced outcome
  awaited := more
  pending := by
    intro state
    refine ⟨(sound.pending state).1, ?_⟩
    intro target member
    rcases mem_settled member with before | finished
    · exact (sound.pending state).2 target before
    · simp [finished]
  canceling := by
    intro state
    refine ⟨(sound.canceling state).1, ?_⟩
    intro target member
    rcases mem_settled member with before | finished
    · exact (sound.canceling state).2 target before
    · simp [finished]
  completed := by
    intro state mode target member
    rcases mem_settled member with before | finished
    · exact sound.completed state mode target before
    · simp [finished]

theorem sound_of_stopped {call : Call} (done : call.state = .completed)
    (balanced : call.remaining = call.unfinished)
    (stopped : ∀ target ∈ call.targets, target.state ≠ .active) : call.Sound where
  balanced := balanced
  awaited := by
    intro opened
    simp [isCompleted, done] at opened
  pending := by simp [done]
  canceling := by simp [done]
  completed := fun _ _ => stopped

theorem not_active_of_interrupted {call : Call} {target : Target}
    (member : target ∈ call.interrupted.targets) : target.state ≠ .active := by
  obtain ⟨before, _, rfl⟩ := List.mem_map.mp member
  exact before.interrupted_not_active

theorem not_active_of_unfinished {call : Call} (none : call.unfinished = 0) {target : Target}
    (member : target ∈ call.targets) : target.state ≠ .active := by
  intro active
  have finished := List.countP_eq_zero.mp none target member
  simp [active, Target.State.isFinished] at finished

theorem sound_of_settled {call : Call} {index : Nat}
    (awaits : ∃ target, call.targets[index]? = some target ∧ target.state.isFinished = false)
    (sound : call.Sound) (outcome : Outcome) :
    (if 0 < (call.settled index outcome).remaining then call.settled index outcome
      else (call.settled index outcome).completed).Sound := by
  have balanced := settled_balanced awaits sound.balanced outcome
  split
  · rename_i more
    exact settled_sound awaits sound outcome fun _ => more
  · rename_i last
    have none : (call.settled index outcome).unfinished = 0 := by omega
    exact sound_of_stopped rfl balanced fun target => not_active_of_unfinished none

theorem turn_sound {call : Call} {event : Event} (admits : call.Admits event)
    (sound : call.Sound) : (call.turn event).call.Sound := by
  have balanced := turn_balanced admits sound.balanced
  cases event with
  | progress payload => exact sound
  | result index payload elapsed => exact sound_of_settled admits sound .result
  | failure index details error payload =>
    cases done : call.isCompleted with
    | true =>
      have settled := settled_sound admits sound .error fun opened => by simp [done] at opened
      simpa [turn, done] using settled
    | false =>
      simp only [turn, done] at balanced ⊢
      by_cases killed : call.cancelMode = some .kill
      · rw [if_neg (by simp), if_pos killed] at balanced ⊢
        have canceling : call.state = .canceling := by
          cases state : call.state with
          | pending => simp [(sound.pending state).1] at killed
          | canceling => rfl
          | completed => simp [isCompleted, state] at done
        refine sound_of_stopped rfl balanced ?_
        intro target member
        rcases mem_settled member with before | finished
        · exact (sound.canceling canceling).2 target before
        · simp [finished]
      · rw [if_neg (by simp), if_neg killed] at balanced ⊢
        exact sound_of_stopped rfl balanced fun target => not_active_of_interrupted
  | loss index => exact sound_of_settled admits sound .error
  | cancellation mode =>
    cases mode with
    | skip =>
      exact
        { balanced
          awaited := by simp [turn]
          pending := by simp [turn, Call.completed]
          canceling := by simp [turn, Call.completed]
          completed := by simp [turn, Call.completed, setCancelMode] }
    | kill =>
      exact
        { balanced
          awaited := fun _ => sound.awaited admits.1
          pending := by simp [turn, interrupted, begun]
          canceling := fun _ => ⟨rfl, fun target => not_active_of_interrupted⟩
          completed := by simp [turn, interrupted, begun] }
    | killNoWait => exact sound_of_stopped rfl balanced fun target => not_active_of_interrupted
  | timeout => exact sound_of_stopped rfl balanced fun target => not_active_of_interrupted
  | abandonment => exact sound_of_stopped rfl balanced fun target => not_active_of_interrupted

theorem turn_finishes {call : Call} {event : Event} {index : Nat}
    (about : event.index? = some index) {after : Target}
    (found : (call.turn event).call.targets[index]? = some after) :
    after.state.isFinished = true := by
  have settle (outcome : Outcome) {target : Target}
      (located : (call.settled index outcome).targets[index]? = some target) :
      target.state.isFinished = true := by
    rw [getElem?_settled, if_pos rfl] at located
    obtain ⟨before, _, rfl⟩ := Option.map_eq_some_iff.mp located
    rfl
  cases event with
  | result place payload elapsed =>
    obtain rfl : place = index := by simpa [Event.index?] using about
    simp only [turn] at found
    split at found <;> exact settle .result found
  | failure place details error payload =>
    obtain rfl : place = index := by simpa [Event.index?] using about
    simp only [turn] at found
    split at found
    · exact settle .error found
    · split at found
      · exact settle .error found
      · simp only [stop, getElem?_interrupted] at found
        obtain ⟨target, located, rfl⟩ := Option.map_eq_some_iff.mp found
        rw [Target.isFinished_interrupted]
        exact settle .error located
  | loss place =>
    obtain rfl : place = index := by simpa [Event.index?] using about
    simp only [turn] at found
    split at found <;> exact settle .error found
  | _ => simp [Event.index?] at about

theorem mem_activeTargets {call : Call} {key : Nat × Nat}
    (member : key ∈ call.activeTargets.map Target.key) :
    ∃ (index : Nat) (target : Target), call.targets[index]? = some target ∧
      target.state = .active ∧ target.key = key := by
  obtain ⟨target, inside, rfl⟩ := List.mem_map.mp member
  obtain ⟨listed, active⟩ := List.mem_filter.mp inside
  obtain ⟨index, found⟩ := List.mem_iff_getElem?.mp listed
  exact ⟨index, target, found, by simpa using active, rfl⟩

theorem released_cases {call : Call} {event : Event} (admits : call.Admits event)
    {key : Nat × Nat} (member : key ∈ (call.turn event).released) :
    (∃ index, event.index? = some index ∧ key ∈ call.keyAt index) ∨
      call.isCompleted = false ∧ (call.turn event).call.isCompleted = true ∧
        ∃ (index : Nat) (target : Target), call.targets[index]? = some target ∧
          target.state = .active ∧ target.key = key := by
  cases event with
  | progress payload => simp [turn] at member
  | result index payload elapsed => exact .inl ⟨index, rfl, member⟩
  | failure index details error payload =>
    cases done : call.isCompleted with
    | true =>
      simp only [turn, done] at member
      exact .inl ⟨index, rfl, member⟩
    | false =>
      by_cases killed : call.cancelMode = some .kill
      · simp only [turn, done, killed] at member
        exact .inl ⟨index, rfl, member⟩
      · simp only [turn, done, killed] at member ⊢
        rcases List.mem_append.mp member with subject | other
        · exact .inl ⟨index, rfl, subject⟩
        · right
          obtain ⟨j, target, found, active, rfl⟩ := mem_activeTargets other
          obtain ⟨before, located, same, less⟩ := advances_settled call index .error j target found
          refine ⟨trivial, rfl, j, before, located, ?_, by simpa using congrArg Target.key same⟩
          cases state : before.state with
          | active => rfl
          | _ => simp [state, active, Target.State.rank] at less
  | loss index => exact .inl ⟨index, rfl, member⟩
  | cancellation mode =>
    cases mode with
    | skip => simp [turn] at member
    | kill => simp [turn] at member
    | killNoWait => exact .inr ⟨admits.1, rfl, mem_activeTargets member⟩
  | timeout => exact .inr ⟨admits, rfl, mem_activeTargets member⟩
  | abandonment => exact .inr ⟨admits, rfl, mem_activeTargets member⟩

theorem released_of_index {call : Call} {event : Event} {index : Nat}
    (about : event.index? = some index) {target : Target}
    (found : call.targets[index]? = some target) : target.key ∈ (call.turn event).released := by
  have subject : target.key ∈ call.keyAt index := by simp [keyAt_of_found found]
  cases event with
  | result place payload elapsed =>
    obtain rfl : place = index := by simpa [Event.index?] using about
    exact subject
  | failure place details error payload =>
    obtain rfl : place = index := by simpa [Event.index?] using about
    simp only [turn]
    split
    · exact subject
    · split
      · exact subject
      · exact List.mem_append_left _ subject
  | loss place =>
    obtain rfl : place = index := by simpa [Event.index?] using about
    exact subject
  | _ => simp [Event.index?] at about

theorem cancelMode_turn (call : Call) (event : Event) :
    (call.turn event).call.cancelMode = call.cancelMode ∨
      ∃ mode, event = .cancellation mode ∧ (call.turn event).call.cancelMode = some mode := by
  cases event with
  | progress payload => exact .inl rfl
  | result index payload elapsed =>
    left
    simp only [turn]
    split <;> rfl
  | failure index details error payload =>
    left
    simp only [turn]
    split
    · rfl
    · split <;> rfl
  | loss index =>
    left
    simp only [turn]
    split <;> rfl
  | cancellation mode =>
    right
    cases mode <;> exact ⟨_, rfl, rfl⟩
  | timeout => exact .inl rfl
  | abandonment => exact .inl rfl

end CallRouter.Call
