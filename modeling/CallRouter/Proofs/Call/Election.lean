import CallRouter.Dealer.Answers
import CallRouter.Proofs.Call.Invariants
import Mathlib.Data.List.Induction

/-!
Attempts on a call, in any order: to cancel or to complete it, to send its caller something while it
is open, and to interrupt or to finish a target. Whether an attempt succeeds, and what becomes of
the call, is told by the attempts before it.
-/

namespace CallRouter.Call

/-- What can be tried on a call. What is sent to the caller changes a world. -/
inductive Attempt (σ : Type) where
  | beginCancel (mode : CancelMode)
  | setCancelMode (mode : CancelMode)
  | complete
  | completeWith (send : σ → σ)
  | forwardProgress (send : σ → σ)
  | interrupt (index : Nat)
  | finish (index : Nat) (outcome : Outcome)

namespace Attempt

variable {σ : Type}

def completes : Attempt σ → Bool
  | complete | completeWith _ => true
  | _ => false

def cancels : Attempt σ → Bool
  | beginCancel _ => true
  | _ => false

def interrupts (index : Nat) : Attempt σ → Bool
  | interrupt place => place == index
  | _ => false

def outcome? (index : Nat) : Attempt σ → Option Outcome
  | finish place outcome => if place = index then some outcome else none
  | _ => none

def finishes (index : Nat) (attempt : Attempt σ) : Bool := (attempt.outcome? index).isSome

end Attempt

inductive Verdict where
  | noted
  | won (won : Bool)
  | left (count : Option Nat)
  deriving DecidableEq, Repr

def Verdict.left? : Verdict → Option Nat
  | left count => count
  | _ => none

structure Tried (σ : Type) where
  verdict : Verdict
  call : Call
  send : σ → σ := id

section Trials

variable {σ : Type}

def taken (call : Call) (send : σ → σ) : Option Call → Tried σ
  | some later => { verdict := .won true, call := later, send }
  | none => { verdict := .won false, call }

def attempt (call : Call) : Attempt σ → Tried σ
  | .beginCancel mode => call.taken id (call.beginCancel? mode)
  | .setCancelMode mode => { verdict := .noted, call := call.setCancelMode mode }
  | .complete => call.taken id call.complete?
  | .completeWith send => call.taken send call.complete?
  | .forwardProgress send => call.taken send (if call.isCompleted then none else some call)
  | .interrupt index => call.taken id ((call.interrupt? index).map (·.2))
  | .finish index outcome =>
    match call.finish? index outcome with
    | some (count, later) => { verdict := .left (some count), call := later }
    | none => { verdict := .left none, call }

structure Trial (σ : Type) where
  call : Call
  world : σ
  verdicts : List Verdict := []

def Trial.step (trial : Trial σ) (next : Attempt σ) : Trial σ :=
  let tried := trial.call.attempt next
  { call := tried.call
    world := tried.send trial.world
    verdicts := trial.verdicts ++ [tried.verdict] }

def trial (call : Call) (world : σ) (history : List (Attempt σ)) : Trial σ :=
  history.foldl Trial.step { call, world }

theorem trial_concat (call : Call) (world : σ) (history : List (Attempt σ)) (next : Attempt σ) :
    call.trial world (history ++ [next]) = (call.trial world history).step next := by
  simp [trial]

end Trials

variable {σ : Type} {call : Call} {history : List (Attempt σ)} {next : Attempt σ}
  {index : Nat}

def State.rank : State → Nat
  | pending => 0
  | canceling => 1
  | completed => 2

def State.tried (state : State) (next : Attempt σ) : State :=
  if next.completes then completed
  else if next.cancels && state == pending then canceling
  else state

def State.after (history : List (Attempt σ)) : State := history.foldl tried pending

def Target.State.tried (index : Nat) (state : Target.State) (next : Attempt σ) : Target.State :=
  if state.isFinished then state
  else
    match next.outcome? index with
    | some outcome => finished outcome
    | none => if next.interrupts index then interrupted else state

def Target.State.after (history : List (Attempt σ)) (index : Nat) : Target.State :=
  history.foldl (tried index) active

theorem State.rank_tried (state : State) (next : Attempt σ) :
    state.rank ≤ (state.tried next).rank := by
  unfold tried
  split
  · cases state <;> simp [rank]
  · split <;> simp_all [rank]

theorem State.tried_eq_completed_iff (state : State) (next : Attempt σ) :
    state.tried next = completed ↔ state = completed ∨ next.completes = true := by
  cases completes : next.completes <;> cases cancels : next.cancels <;> cases state <;>
    simp [tried, completes, cancels]

theorem State.tried_eq_pending_iff (state : State) (next : Attempt σ) :
    state.tried next = pending ↔
      state = pending ∧ next.completes = false ∧ next.cancels = false := by
  cases completes : next.completes <;> cases cancels : next.cancels <;> cases state <;>
    simp [tried, completes, cancels]

theorem Target.State.isFinished_tried (index : Nat) (state : Target.State) (next : Attempt σ) :
    (state.tried index next).isFinished = (state.isFinished || next.finishes index) := by
  unfold tried Attempt.finishes
  split
  · simp_all
  · split <;> rename_i found
    · simp [found, isFinished]
    · split <;> simp_all [isFinished]

theorem Target.State.tried_eq_active_iff (index : Nat) (state : Target.State) (next : Attempt σ) :
    state.tried index next = active ↔
      state = active ∧ next.interrupts index = false ∧ next.finishes index = false := by
  unfold tried Attempt.finishes
  split
  · cases state <;> simp_all [isFinished]
  · split <;> rename_i found
    · simp [found]
    · split <;> simp_all

theorem State.after_eq_completed_iff (history : List (Attempt σ)) :
    after history = completed ↔ history.any Attempt.completes = true := by
  induction history using List.reverseRecOn with
  | nil => simp [after]
  | append_singleton history next ih =>
    simpa [after, tried_eq_completed_iff] using or_congr_left ih

theorem State.after_eq_pending_iff (history : List (Attempt σ)) :
    after history = pending ↔
      ∀ past ∈ history, past.completes = false ∧ past.cancels = false := by
  induction history using List.reverseRecOn with
  | nil => simp [after]
  | append_singleton history next ih =>
    rw [List.forall_mem_append, List.forall_mem_singleton, ← ih]
    simp [after, tried_eq_pending_iff]

theorem Target.State.isFinished_after (history : List (Attempt σ)) (index : Nat) :
    (after history index).isFinished = history.any (Attempt.finishes index) := by
  induction history using List.reverseRecOn with
  | nil => rfl
  | append_singleton history next ih =>
    rw [List.any_append, ← ih]
    simp [after, isFinished_tried]

theorem Target.State.after_eq_active_iff (history : List (Attempt σ)) (index : Nat) :
    after history index = active ↔
      ∀ past ∈ history, past.interrupts index = false ∧ past.finishes index = false := by
  induction history using List.reverseRecOn with
  | nil => simp [after]
  | append_singleton history next ih =>
    rw [List.forall_mem_append, List.forall_mem_singleton, ← ih]
    simp [after, tried_eq_active_iff]

def halted (call : Call) (index : Nat) : Call :=
  { call with targets := call.targets.modify index Target.interrupted }

theorem interrupt?_cases (call : Call) (index : Nat) :
    (∃ target, call.targets[index]? = some target ∧ target.state = .active ∧
      call.interrupt? index = some (target, call.halted index)) ∨
    (∀ target, call.targets[index]? = some target → target.state ≠ .active) ∧
      call.interrupt? index = none := by
  cases found : call.targets[index]? with
  | none => exact .inr ⟨nofun, by simp [interrupt?, found]⟩
  | some target =>
    by_cases active : target.state = .active
    · refine .inl ⟨target, rfl, active, ?_⟩
      rw [interrupt?_of_active found active, halted, ← set_eq_modify found]
    · refine .inr ⟨?_, interrupt?_of_not_active found active⟩
      rintro _ ⟨⟩
      exact active

theorem finish?_cases (call : Call) (index : Nat) (outcome : Outcome) :
    (∃ target, call.targets[index]? = some target ∧ target.state.isFinished = false ∧
      call.finish? index outcome = some (call.remaining - 1, call.settled index outcome)) ∨
    (∀ target, call.targets[index]? = some target → target.state.isFinished = true) ∧
      call.finish? index outcome = none := by
  cases found : call.targets[index]? with
  | none => exact .inr ⟨nofun, by simp [finish?, found]⟩
  | some target =>
    cases finished : target.state.isFinished with
    | false => exact .inl ⟨target, rfl, finished, finish?_of_unfinished found finished outcome⟩
    | true =>
      refine .inr ⟨?_, by simp [finish?, found, finished]⟩
      rintro _ ⟨⟩
      exact finished

theorem halted_of_past
    (past : ∀ target, call.targets[index]? = some target → target.state ≠ .active) :
    call.halted index = call := by
  have same : call.targets.modify index Target.interrupted = call.targets := by
    apply List.ext_getElem?
    intro place
    rw [List.getElem?_modify]
    cases found : call.targets[place]? with
    | none => rfl
    | some target =>
      by_cases here : index = place
      · simp [here, Target.interrupted, past target (here ▸ found)]
      · simp [here]
  rw [halted, same]

inductive Makes (call : Call) : Attempt σ → Call → Prop
  | turns {next : Attempt σ} {state : State} (mode : Option CancelMode)
      (moves : call.state.tried next = state) (interrupts : ∀ index, next.interrupts index = false)
      (finishes : ∀ index, next.finishes index = false) :
      Makes call next { call with state, cancelMode := mode }
  | interrupts (index : Nat) : Makes call (.interrupt index) (call.halted index)
  | finishes {index : Nat} {outcome : Outcome} {target : Target}
      (found : call.targets[index]? = some target) (left : target.state.isFinished = false) :
      Makes call (.finish index outcome) (call.settled index outcome)
  | ignores {index : Nat} {outcome : Outcome}
      (past : ∀ target, call.targets[index]? = some target → target.state.isFinished = true) :
      Makes call (.finish index outcome) call

theorem makes_attempt (call : Call) (next : Attempt σ) :
    call.Makes next (call.attempt next).call := by
  cases next with
  | beginCancel mode =>
    by_cases pending : call.state = .pending
    · simp only [attempt, beginCancel?, if_pos pending]
      exact .turns mode (by simp [State.tried, Attempt.completes, Attempt.cancels, pending])
        (fun _ => rfl) fun _ => rfl
    · simp only [attempt, beginCancel?, if_neg pending]
      exact .turns call.cancelMode (by simp [State.tried, Attempt.completes, pending])
        (fun _ => rfl) fun _ => rfl
  | setCancelMode mode => exact .turns mode rfl (fun _ => rfl) fun _ => rfl
  | complete | completeWith =>
    -- A lost attempt is a turn to the state the call is in.
    cases done : call.isCompleted
    · simp only [attempt, complete?, done]
      exact .turns call.cancelMode rfl (fun _ => rfl) fun _ => rfl
    · simp only [attempt, complete?, done]
      exact .turns call.cancelMode (of_decide_eq_true done).symm (fun _ => rfl) fun _ => rfl
  | forwardProgress =>
    cases done : call.isCompleted <;> simp only [attempt, done] <;>
      exact .turns call.cancelMode rfl (fun _ => rfl) fun _ => rfl
  | interrupt index =>
    have halts : (call.attempt (.interrupt index : Attempt σ)).call = call.halted index := by
      rcases interrupt?_cases call index with ⟨target, -, -, won⟩ | ⟨past, lost⟩
      · simp only [attempt, won]
        rfl
      · simp only [attempt, lost, halted_of_past past]
        rfl
    rw [halts]
    exact .interrupts index
  | finish index outcome =>
    rcases finish?_cases call index outcome with ⟨target, found, left, won⟩ | ⟨past, lost⟩
    · simp only [attempt, won]
      exact .finishes found left
    · simp only [attempt, lost]
      exact .ignores past

theorem getElem?_halted (call : Call) (index place : Nat) :
    (call.halted index).targets[place]? =
      if index = place then call.targets[place]?.map Target.interrupted
      else call.targets[place]? := by
  simp only [halted, List.getElem?_modify]
  split <;> simp

theorem state_attempt (call : Call) (next : Attempt σ) :
    (call.attempt next).call.state = call.state.tried next := by
  have makes := makes_attempt call next
  generalize (call.attempt next).call = later at makes
  cases makes with
  | turns mode moves => exact moves.symm
  | interrupts | finishes | ignores => rfl

def Target.tried (index : Nat) (next : Attempt σ) (target : Target) : Target :=
  { target with state := target.state.tried index next }

theorem Target.tried_interrupt (index : Nat) (target : Target) :
    target.tried index (.interrupt index : Attempt σ) = target.interrupted := by
  obtain ⟨registration, callee, pattern, invocation, progressive, state⟩ := target
  cases state <;>
    simp [tried, State.tried, State.isFinished, Attempt.outcome?, Attempt.interrupts, interrupted]

theorem Target.tried_finish {target : Target} (left : target.state.isFinished = false)
    (index : Nat) (outcome : Outcome) :
    target.tried index (.finish index outcome : Attempt σ) = target.finished outcome := by
  simp [tried, State.tried, left, Attempt.outcome?, finished]

theorem Target.tried_of_finished {target : Target} (past : target.state.isFinished = true)
    (index : Nat) (next : Attempt σ) : target.tried index next = target := by
  simp [tried, State.tried, past]

theorem Target.tried_of_apart (target : Target) (interrupts : next.interrupts index = false)
    (finishes : next.finishes index = false) : target.tried index next = target := by
  have outcome : next.outcome? index = none := by simpa [Attempt.finishes] using finishes
  simp [tried, State.tried, interrupts, outcome]

theorem getElem?_attempt (call : Call) (next : Attempt σ) (index : Nat) :
    (call.attempt next).call.targets[index]? =
      call.targets[index]?.map (Target.tried index next) := by
  have apart (interrupts : next.interrupts index = false) (finishes : next.finishes index = false) :
      call.targets[index]? = call.targets[index]?.map (Target.tried index next) := by
    cases call.targets[index]? with
    | none => rfl
    | some target => rw [Option.map_some, target.tried_of_apart interrupts finishes]
  have makes := makes_attempt call next
  generalize (call.attempt next).call = later at makes
  cases makes with
  | turns mode moves interrupts finishes => exact apart (interrupts index) (finishes index)
  | interrupts place =>
    rw [getElem?_halted]
    by_cases here : place = index
    · subst here
      rw [if_pos rfl, ← funext (Target.tried_interrupt place)]
    · rw [if_neg here]
      exact apart (by simp [Attempt.interrupts, here]) rfl
  | @finishes place outcome target found left =>
    rw [getElem?_settled]
    by_cases here : place = index
    · subst here
      rw [if_pos rfl, found, Option.map_some, Option.map_some, Target.tried_finish left]
    · rw [if_neg here]
      exact apart rfl (by simp [Attempt.finishes, Attempt.outcome?, here])
  | @ignores place outcome past =>
    by_cases here : place = index
    · subst here
      cases found : call.targets[place]? with
      | none => rfl
      | some target => rw [Option.map_some, Target.tried_of_finished (past target found)]
    · exact apart rfl (by simp [Attempt.finishes, Attempt.outcome?, here])

theorem unfinished_halted (call : Call) (index : Nat) :
    (call.halted index).unfinished = call.unfinished := by
  have same : (call.halted index).targets.map (fun target => target.state.isFinished) =
      call.targets.map fun target => target.state.isFinished := by
    apply List.ext_getElem?
    intro place
    rw [List.getElem?_map, List.getElem?_map, getElem?_halted]
    split <;> simp [Function.comp_def]
  have counted (call : Call) : call.unfinished =
      (call.targets.map fun target => target.state.isFinished).countP (!·) := by
    rw [List.countP_map]
    rfl
  rw [counted, same, ← counted]

theorem balanced_attempt (balanced : call.remaining = call.unfinished) (next : Attempt σ) :
    (call.attempt next).call.remaining = (call.attempt next).call.unfinished := by
  have makes := makes_attempt call next
  generalize (call.attempt next).call = later at makes
  cases makes with
  | turns | ignores => exact balanced
  | interrupts index => exact balanced.trans (unfinished_halted call index).symm
  | finishes found left => exact settled_balanced ⟨_, found, left⟩ balanced _

theorem verdict_beginCancel (call : Call) (mode : CancelMode) :
    (call.attempt (.beginCancel mode : Attempt σ)).verdict = .won (call.state == .pending) := by
  by_cases pending : call.state = .pending <;> simp [attempt, beginCancel?, pending, taken]

theorem attempt_complete (call : Call) (send : σ → σ) :
    (call.attempt (.complete : Attempt σ)).verdict = .won (!call.isCompleted) ∧
    (call.attempt (.completeWith send)).verdict = .won (!call.isCompleted) ∧
    (call.attempt (.completeWith send)).send = if call.isCompleted then id else send := by
  cases done : call.isCompleted <;> simp [attempt, complete?, done, taken]

theorem attempt_forwardProgress (call : Call) (send : σ → σ) :
    (call.attempt (.forwardProgress send)).verdict = .won (!call.isCompleted) ∧
    (call.attempt (.forwardProgress send)).send = if call.isCompleted then id else send := by
  cases done : call.isCompleted <;> simp [attempt, done, taken]

theorem verdict_interrupt (call : Call) (index : Nat) :
    (call.attempt (.interrupt index : Attempt σ)).verdict =
      .won (call.targets[index]?.any fun target => target.state == .active) := by
  rcases interrupt?_cases call index with ⟨target, found, active, won⟩ | ⟨past, lost⟩
  · simp [attempt, won, taken, found, active]
  · have none : call.targets[index]?.any (fun target => target.state == .active) = false := by
      simpa [Option.any_eq_false] using past
    simp [attempt, lost, taken, none]

theorem verdict_finish (call : Call) (index : Nat) (outcome : Outcome) :
    (call.attempt (.finish index outcome : Attempt σ)).verdict =
      .left (if call.targets[index]?.any (fun target => !target.state.isFinished)
        then some (call.remaining - 1) else none) := by
  rcases finish?_cases call index outcome with ⟨target, found, left, won⟩ | ⟨past, lost⟩
  · simp [attempt, won, found, left]
  · have none : call.targets[index]?.any (fun target => !target.state.isFinished) = false := by
      simpa [Option.any_eq_false] using past
    simp [attempt, lost, none]

theorem state_trial (call : Call) (world : σ) (history : List (Attempt σ)) :
    (call.origin.trial world history).call.state = State.after history := by
  induction history using List.reverseRecOn with
  | nil => rfl
  | append_singleton history next ih =>
    rw [trial_concat, Trial.step, state_attempt, ih]
    simp [State.after]

theorem targets_trial (call : Call) (world : σ) (history : List (Attempt σ)) :
    (call.origin.trial world history).call.targets =
    call.targets.mapIdx fun index target =>
      { target with state := Target.State.after history index } := by
  apply List.ext_getElem?
  intro index
  rw [List.getElem?_mapIdx]
  induction history using List.reverseRecOn with
  | nil => exact List.getElem?_map
  | append_singleton history next ih =>
    rw [trial_concat, Trial.step, getElem?_attempt, ih, Option.map_map]
    simp [Target.State.after, Target.tried, Function.comp_def]

theorem balanced_trial (call : Call) (world : σ) (history : List (Attempt σ)) :
    (call.origin.trial world history).call.remaining =
    (call.origin.trial world history).call.unfinished := by
  induction history using List.reverseRecOn with
  | nil =>
    show call.targets.length = (call.targets.map Target.origin).countP _
    rw [List.countP_map, eq_comm, List.countP_eq_length]
    intro target _
    rfl
  | append_singleton history next ih =>
    rw [trial_concat, Trial.step]
    exact balanced_attempt ih next

theorem remaining_trial (call : Call) (world : σ) (history : List (Attempt σ)) :
    (call.origin.trial world history).call.remaining +
    (call.origin.trial world history).call.targets.countP (·.state.isFinished) =
      call.targets.length := by
  have length : (call.origin.trial world history).call.targets.length = call.targets.length := by
    rw [targets_trial, List.length_mapIdx]
  rw [balanced_trial, ← length, List.length_eq_countP_add_countP (·.state.isFinished), Nat.add_comm]
  simp [unfinished]

theorem left?_taken (call : Call) (send : σ → σ) (later : Option Call) :
    (call.taken send later).verdict.left? = none := by
  cases later <;> rfl

theorem remaining_attempt (call : Call) (unrelated : ∀ index, next.finishes index = false) :
    (call.attempt next).call.remaining = call.remaining := by
  have makes := makes_attempt call next
  generalize (call.attempt next).call = later at makes
  cases makes with
  | @finishes index outcome =>
    have other := unrelated index
    simp [Attempt.finishes, Attempt.outcome?] at other
  | turns | interrupts | ignores => rfl

theorem left?_attempt (balanced : call.remaining = call.unfinished) (next : Attempt σ) :
    (call.attempt next).verdict.left? = none ∧ (call.attempt next).call.remaining = call.remaining ∨
    (call.attempt next).verdict.left? = some (call.attempt next).call.remaining ∧
      (call.attempt next).call.remaining + 1 = call.remaining := by
  cases next with
  | finish index outcome =>
    rcases finish?_cases call index outcome with ⟨target, found, left, won⟩ | ⟨past, lost⟩
    · right
      have some : 0 < call.unfinished :=
        List.countP_pos_iff.mpr ⟨target, List.mem_of_getElem? found, by simp [left]⟩
      simp only [attempt, won, Verdict.left?, remaining_settled, true_and]
      omega
    · left
      simp only [attempt, lost, Verdict.left?, and_self]
  | setCancelMode mode => exact .inl ⟨rfl, rfl⟩
  | beginCancel | complete | completeWith | forwardProgress | interrupt =>
    exact .inl ⟨left?_taken _ _ _, remaining_attempt call fun _ => rfl⟩

theorem lefts_trial (call : Call) (world : σ) (history : List (Attempt σ)) :
    let now := (call.origin.trial world history).call
    (call.origin.trial world history).verdicts.filterMap Verdict.left? =
      (List.range (call.targets.length - now.remaining)).map fun k =>
        call.targets.length - (k + 1) := by
  induction history using List.reverseRecOn with
  | nil => simp [trial, origin]
  | append_singleton history next ih =>
    have total := remaining_trial call world history
    rw [trial_concat, Trial.step]
    dsimp only at ih ⊢
    rw [List.filterMap_append, ih]
    rcases left?_attempt (balanced_trial call world history) next with
      ⟨none, same⟩ | ⟨some, less⟩
    · rw [same, List.filterMap_cons_none none]
      simp
    · generalize (call.origin.trial world history).call = now at *
      have more : call.targets.length - (now.attempt next).call.remaining =
          call.targets.length - now.remaining + 1 := by omega
      have last : call.targets.length - (call.targets.length - now.remaining + 1) =
          (now.attempt next).call.remaining := by omega
      rw [more, List.range_succ, List.map_append, List.filterMap_cons_some some]
      simp [last]

theorem count_zero_countdown {count finished : Nat} (few : finished ≤ count) :
    ((List.range finished).map fun k => count - (k + 1)).count 0 =
      if 0 < count ∧ finished = count then 1 else 0 := by
  induction finished with
  | zero =>
    rw [if_neg (by omega)]
    rfl
  | succ finished ih =>
    rw [List.range_succ, List.map_append, List.count_append, ih (by omega), if_neg (by omega),
      List.map_singleton, List.count_singleton]
    simp only [beq_iff_eq, Nat.zero_add]
    congr 1
    exact propext (by omega)

theorem count_left_zero (verdicts : List Verdict) :
    verdicts.count (.left (some 0)) = (verdicts.filterMap Verdict.left?).count 0 := by
  rw [List.count_filterMap, List.count]
  congr 1
  funext verdict
  cases verdict with
  | left count => cases count <;> simp [Verdict.left?]
  | noted | won => rfl

theorem isCompleted_trial (call : Call) (world : σ) (history : List (Attempt σ)) :
    (call.origin.trial world history).call.isCompleted =
      !history.all fun past => !past.completes := by
  have done := State.after_eq_completed_iff history
  rw [← state_trial call world] at done
  rw [isCompleted, Bool.eq_iff_iff, beq_iff_eq, done]
  simp

theorem rank_trial (call : Call) (world : σ) (history more : List (Attempt σ)) :
    (call.origin.trial world history).call.state.rank ≤
      (call.origin.trial world (history ++ more)).call.state.rank := by
  induction more using List.reverseRecOn with
  | nil => simp
  | append_singleton more next ih =>
    rw [← List.append_assoc, trial_concat, Trial.step, state_attempt]
    exact Nat.le_trans ih (State.rank_tried _ _)

theorem any_target_trial (call : Call) (world : σ) (history : List (Attempt σ)) (index : Nat)
    (holds : Target.State → Bool) :
    (call.origin.trial world history).call.targets[index]?.any (fun target => holds target.state) =
      (decide (index < call.targets.length) && holds (Target.State.after history index)) := by
  rw [targets_trial, List.getElem?_mapIdx]
  by_cases there : index < call.targets.length
  · simp [there]
  · simp [there]

theorem pending_iff (history : List (Attempt σ)) :
    (State.after history == .pending) =
      history.all fun past => !past.completes && !past.cancels := by
  rw [Bool.eq_iff_iff, beq_iff_eq, State.after_eq_pending_iff]
  simp

theorem untouched_iff (history : List (Attempt σ)) (index : Nat) :
    (Target.State.after history index == .active) =
      history.all fun past => !past.interrupts index && !past.finishes index := by
  rw [Bool.eq_iff_iff, beq_iff_eq, Target.State.after_eq_active_iff]
  simp

theorem activeTargets_trial (call : Call) (world : σ) (history : List (Attempt σ)) :
    (call.origin.trial world history).call.activeTargets =
      (call.targets.zipIdx.filter fun target =>
        history.all fun past => !past.interrupts target.2 && !past.finishes target.2).map
          (·.1.origin) := by
  rw [activeTargets, targets_trial, List.mapIdx_eq_zipIdx_map, List.filter_map]
  simp only [Function.comp_def, untouched_iff]
  apply List.map_congr_left
  intro target member
  have active := (List.mem_filter.mp member).2
  rw [← untouched_iff, beq_iff_eq] at active
  rw [active]
  rfl

/--
Whatever is tried on a call, in whatever order. The first attempt to complete it wins, with or
without something to send, and no other one does; what is to be sent before that is sent, and
nothing after it. A call begins to be canceled once, and not after its completion. A target is
interrupted once, and not after it has finished; it finishes once, and each one that does is told
how many are left. The dealer sends progress and last messages by these attempts.
-/
theorem first_completion_wins (call : Call) (world : σ) (history : List (Attempt σ)) :
    let trial := call.origin.trial world history
    let now := trial.call
    let opened := history.all fun past => !past.completes
    let count := call.targets.length
    let finished := now.targets.countP fun target => target.state.isFinished
    (now.attempt (.complete : Attempt σ)).verdict = .won opened ∧
    (∀ send : σ → σ,
      (now.attempt (.completeWith send)).verdict = .won opened ∧
      ((now.attempt (.completeWith send)).send = if opened then send else id) ∧
      (now.attempt (.forwardProgress send)).verdict = .won opened ∧
      (now.attempt (.forwardProgress send)).send = if opened then send else id) ∧
    (∀ mode, (now.attempt (.beginCancel mode : Attempt σ)).verdict =
      .won (history.all fun past => !past.completes && !past.cancels)) ∧
    (∀ more, now.state.rank ≤ (call.origin.trial world (history ++ more)).call.state.rank) ∧
    (∀ index, (now.attempt (.interrupt index : Attempt σ)).verdict =
      .won (decide (index < count) &&
        history.all fun past => !past.interrupts index && !past.finishes index)) ∧
    (∀ index outcome, (now.attempt (.finish index outcome : Attempt σ)).verdict =
      .left (if decide (index < count) && history.all fun past => !past.finishes index
        then some (count - (finished + 1)) else none)) ∧
    (trial.verdicts.filterMap Verdict.left? =
      (List.range finished).map fun k => count - (k + 1)) ∧
    (trial.verdicts.count (.left (some 0)) = if 0 < count ∧ finished = count then 1 else 0) ∧
    now.remaining + finished = count ∧
    now.activeTargets = (call.targets.zipIdx.filter fun target =>
      history.all fun past => !past.interrupts target.2 && !past.finishes target.2).map
        (·.1.origin) ∧
    ∀ (dealer : Dealer) (number : Nat),
      (∀ payload, dealer.sendProgress number now payload =
        if opened then dealer.send now.caller (now.progressReply payload) (some number)
        else dealer) ∧
      ∀ reply, (dealer.conclude? number now reply).isSome = opened := by
  intro trial now opened count finished
  have completed : now.isCompleted = !opened := isCompleted_trial call world history
  have total : now.remaining + finished = count := remaining_trial call world history
  have lefts : trial.verdicts.filterMap Verdict.left? =
      (List.range finished).map fun k => count - (k + 1) := by
    rw [lefts_trial call world history, show count - now.remaining = finished by omega]
  refine ⟨?_, fun send => ⟨?_, ?_, ?_, ?_⟩, fun mode => ?_, rank_trial call world history,
    fun index => ?_, fun index outcome => ?_, lefts, ?_, total,
    activeTargets_trial call world history,
    fun dealer number => ⟨fun payload => ?_, fun reply => ?_⟩⟩
  · rw [(attempt_complete now id).1, completed, Bool.not_not]
  · rw [(attempt_complete now send).2.1, completed, Bool.not_not]
  · rw [(attempt_complete now send).2.2, completed]
    cases opened <;> rfl
  · rw [(attempt_forwardProgress now send).1, completed, Bool.not_not]
  · rw [(attempt_forwardProgress now send).2, completed]
    cases opened <;> rfl
  · rw [verdict_beginCancel, state_trial call world history, pending_iff]
  · rw [verdict_interrupt, any_target_trial call world history index (· == .active),
      untouched_iff]
  · have less : now.remaining - 1 = count - (finished + 1) := by omega
    rw [verdict_finish, less,
      any_target_trial call world history index fun state => !state.isFinished,
      Target.State.isFinished_after, List.not_any_eq_all_not]
  · rw [count_left_zero, lefts, count_zero_countdown (by omega)]
  · rw [Dealer.sendProgress, completed]
    cases opened <;> rfl
  · rw [Dealer.conclude?, Option.isSome_map, complete?, completed]
    cases opened <;> rfl

end CallRouter.Call
