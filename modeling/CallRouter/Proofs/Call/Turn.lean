import CallRouter.Dealer.Basic

/-!
The life of a call as a sequence of events. Each event turns a call into another one, and a turn
says what else comes of it: the messages that are sent on behalf of the call, the invocations that
are released, and what is recorded.
-/

namespace CallRouter.Call

namespace Target

def key (target : Target) : Nat × Nat := (target.callee, target.invocation)

def interrupted (target : Target) : Target :=
  if target.state = .active then { target with state := .interrupted } else target

def finished (outcome : Outcome) (target : Target) : Target :=
  { target with state := .finished outcome }

@[simp] theorem key_interrupted (target : Target) : target.interrupted.key = target.key := by
  unfold interrupted
  split <;> rfl

@[simp] theorem isFinished_interrupted (target : Target) :
    target.interrupted.state.isFinished = target.state.isFinished := by
  unfold interrupted
  split
  · rename_i active
    simp [active, State.isFinished]
  · rfl

theorem interrupted_not_active (target : Target) : target.interrupted.state ≠ .active := by
  unfold interrupted
  split
  · simp
  · assumption

@[simp] theorem isFinished_finished (outcome : Outcome) (target : Target) :
    (target.finished outcome).state.isFinished = true := rfl

end Target

def unfinished (call : Call) : Nat := call.targets.countP fun target => !target.state.isFinished

def completed (call : Call) : Call := { call with state := .completed }

def interrupted (call : Call) : Call := { call with targets := call.targets.map Target.interrupted }

def settled (call : Call) (index : Nat) (outcome : Outcome) : Call :=
  { call with
    targets := call.targets.modify index (Target.finished outcome)
    remaining := call.remaining - 1 }

@[simp] theorem isCompleted_settled (call : Call) (index : Nat) (outcome : Outcome) :
    (call.settled index outcome).isCompleted = call.isCompleted := rfl

@[simp] theorem caller_settled (call : Call) (index : Nat) (outcome : Outcome) :
    (call.settled index outcome).caller = call.caller := rfl

@[simp] theorem request_settled (call : Call) (index : Nat) (outcome : Outcome) :
    (call.settled index outcome).request = call.request := rfl

@[simp] theorem started_settled (call : Call) (index : Nat) (outcome : Outcome) :
    (call.settled index outcome).started = call.started := rfl

@[simp] theorem remaining_settled (call : Call) (index : Nat) (outcome : Outcome) :
    (call.settled index outcome).remaining = call.remaining - 1 := rfl

@[simp] theorem cancelMode_settled (call : Call) (index : Nat) (outcome : Outcome) :
    (call.settled index outcome).cancelMode = call.cancelMode := rfl

@[simp] theorem caller_setCancelMode (call : Call) (mode : CancelMode) :
    (call.setCancelMode mode).caller = call.caller := rfl

@[simp] theorem isCompleted_setCancelMode (call : Call) (mode : CancelMode) :
    (call.setCancelMode mode).isCompleted = call.isCompleted := rfl

@[simp] theorem isCompleted_completed (call : Call) : call.completed.isCompleted = true := rfl

@[simp] theorem isCompleted_interrupted (call : Call) :
    call.interrupted.isCompleted = call.isCompleted := rfl

@[simp] theorem activeTargets_completed (call : Call) :
    call.completed.activeTargets = call.activeTargets := rfl

def begun (call : Call) : Call := { call.setCancelMode .kill with state := .canceling }

@[simp] theorem isCompleted_begun (call : Call) : call.begun.isCompleted = false := rfl

theorem beginCancel?_of_pending {call : Call} (pending : call.state = .pending) :
    call.beginCancel? .kill = some call.begun := by
  simp [beginCancel?, pending, begun, setCancelMode]

theorem completed_of_isCompleted {call : Call} (done : call.isCompleted = true) :
    call.completed = call := by
  cases call
  simp_all [completed, isCompleted]

theorem complete?_of_open {call : Call} (opened : call.isCompleted = false) :
    call.complete? = some call.completed := by
  simp [complete?, opened, completed]

theorem set_eq_modify {targets : List Target} {index : Nat} {target : Target}
    (found : targets[index]? = some target) (change : Target → Target) :
    targets.set index (change target) = targets.modify index change := by
  apply List.ext_getElem?
  intro j
  rw [List.getElem?_set, List.getElem?_modify]
  by_cases here : index = j
  · subst here
    obtain ⟨bound, located⟩ := List.getElem?_eq_some_iff.mp found
    simp [bound, located]
  · simp [here]

theorem finish?_of_unfinished {call : Call} {index : Nat} {target : Target}
    (found : call.targets[index]? = some target) (left : target.state.isFinished = false)
    (outcome : Outcome) :
    call.finish? index outcome = some (call.remaining - 1, call.settled index outcome) := by
  have change := set_eq_modify found (Target.finished outcome)
  simp only [Target.finished] at change
  simp [finish?, found, left, settled, change]

theorem interrupt?_of_active {call : Call} {index : Nat} {target : Target}
    (found : call.targets[index]? = some target) (active : target.state = .active) :
    call.interrupt? index =
      some (target, { call with targets := call.targets.set index target.interrupted }) := by
  simp [interrupt?, found, active, Target.interrupted]

theorem interrupt?_of_not_active {call : Call} {index : Nat} {target : Target}
    (found : call.targets[index]? = some target) (past : target.state ≠ .active) :
    call.interrupt? index = none := by
  simp [interrupt?, found, past]

theorem foldl_interrupt? {next : List Target × Call → Nat → List Target × Call}
    (taken : ∀ {sent call index target later}, call.interrupt? index = some (target, later) →
      next (sent, call) index = (sent ++ [target], later))
    (left : ∀ {sent call index}, call.interrupt? index = none →
      next (sent, call) index = (sent, call))
    (rest done sent : List Target) (call : Call) (shape : call.targets = done ++ rest) :
    (List.range' done.length rest.length).foldl next (sent, call) =
      (sent ++ rest.filter fun target => target.state == .active,
        { call with targets := done ++ rest.map Target.interrupted }) := by
  induction rest generalizing done sent call with
  | nil =>
    rw [List.append_nil] at shape
    simp [← shape]
  | cons target rest ih =>
    have found : call.targets[done.length]? = some target := by simp [shape]
    have length : done.length + 1 = (done ++ [target.interrupted]).length := by simp
    rw [List.length_cons, List.range'_succ, List.foldl_cons]
    by_cases active : target.state = .active
    · rw [taken (interrupt?_of_active found active), length, ih (done ++ [target.interrupted])]
      · simp [active]
      · simp [shape]
    · have same : target.interrupted = target := by simp [Target.interrupted, active]
      rw [left (interrupt?_of_not_active found active), length, ih (done ++ [target.interrupted])]
      · simp [active, same]
      · simp [shape, same]

theorem interruptActive_eq (call : Call) :
    call.interruptActive = (call.activeTargets, call.interrupted) := by
  rw [interruptActive, List.range_eq_range']
  refine foldl_interrupt? ?_ ?_ call.targets [] [] call rfl
  · intro sent call index target later taken
    simp only [taken]
  · intro sent call index left
    simp only [left]

inductive Event where
  | progress (payload : Payload)
  | result (index : Nat) (payload : Payload) (elapsed : Nat)
  | failure (index : Nat) (details : Dict) (error : String) (payload : Payload)
  | loss (index : Nat)
  | cancellation (mode : CancelMode)
  | timeout
  | abandonment

structure Turn where
  call : Call
  sent : List (Nat × Rpc) := []
  released : List (Nat × Nat) := []
  recorded : List (Pattern × Occurrence) := []

def progressReply (call : Call) (payload : Payload) : Rpc :=
  .result call.request [(Dict.Key.progress, .bool true)] payload

def Target.interrupt (mode : CancelMode) (reason : String) (target : Target) : Nat × Rpc :=
  (target.callee, .interrupt target.invocation
    [(Dict.Key.mode, .text mode.name), (Dict.Key.reason, .text reason)])

def interrupts (call : Call) (mode : CancelMode) (reason : String) : List (Nat × Rpc) :=
  call.activeTargets.map (Target.interrupt mode reason)

@[simp] theorem interrupts_completed (call : Call) (mode : CancelMode) (reason : String) :
    call.completed.interrupts mode reason = call.interrupts mode reason := rfl

@[simp] theorem interrupts_begun (call : Call) (mode : CancelMode) (reason : String) :
    call.begun.interrupts mode reason = call.interrupts mode reason := rfl

@[simp] theorem ended_settled (call : Call) (index : Nat) (outcome : Outcome) (reason : String)
    (error : ErrorUri) :
    Dealer.ended (call.settled index outcome) reason error = Dealer.ended call reason error := rfl

@[simp] theorem ended_setCancelMode (call : Call) (mode : CancelMode) (reason : String)
    (error : ErrorUri) :
    Dealer.ended (call.setCancelMode mode) reason error = Dealer.ended call reason error := rfl

def keyAt (call : Call) (index : Nat) : List (Nat × Nat) :=
  call.targets[index]?.toList.map Target.key

def noteAt (call : Call) (index : Nat) (occurrence : Occurrence) : List (Pattern × Occurrence) :=
  call.targets[index]?.toList.map fun target => (target.pattern, occurrence)

theorem keyAt_of_found {call : Call} {index : Nat} {target : Target}
    (found : call.targets[index]? = some target) : call.keyAt index = [target.key] := by
  simp [keyAt, found]

theorem noteAt_of_found {call : Call} {index : Nat} {target : Target}
    (found : call.targets[index]? = some target) (occurrence : Occurrence) :
    call.noteAt index occurrence = [(target.pattern, occurrence)] := by
  simp [noteAt, found]

@[simp] theorem noteAt_setCancelMode (call : Call) (mode : CancelMode) (index : Nat)
    (occurrence : Occurrence) :
    (call.setCancelMode mode).noteAt index occurrence = call.noteAt index occurrence := rfl

def stop (call : Call) (reply : Option Rpc) (mode : CancelMode) (reason : String) : Turn where
  call := call.completed.interrupted
  sent := reply.toList.map (call.caller, ·) ++ call.interrupts mode reason
  released := call.activeTargets.map Target.key

def turn (call : Call) : Event → Turn
  | .progress payload => { call, sent := [(call.caller, call.progressReply payload)] }
  | .result index payload elapsed =>
    let settled := call.settled index .result
    let reply := if 0 < settled.remaining then settled.progressReply payload
      else .result call.request [] payload
    { call := if 0 < settled.remaining then settled else settled.completed
      sent := if call.isCompleted then [] else [(call.caller, reply)]
      released := call.keyAt index
      recorded := call.noteAt index (.completion elapsed) }
  | .failure index details error payload =>
    let settled := call.settled index .error
    let reply : Rpc := .error .call call.request details error payload
    let recorded := call.noteAt index .failure
    if call.isCompleted then { call := settled, released := call.keyAt index, recorded }
    else if call.cancelMode = some .kill then
      { call := settled.completed, sent := [(call.caller, reply)], released := call.keyAt index,
        recorded }
    else
      let stop := settled.stop (some reply) .killNoWait CancelMode.killNoWait.reason
      { stop with released := call.keyAt index ++ stop.released, recorded }
  | .loss index =>
    let settled := call.settled index .error
    let last := Dealer.ended call "callee.lost" .canceled
    { call := if 0 < settled.remaining then settled else settled.completed
      sent := if call.isCompleted || 0 < settled.remaining then [] else [(call.caller, last)]
      released := call.keyAt index }
  | .cancellation mode =>
    let chosen := call.setCancelMode mode
    let last := Dealer.ended call mode.reason .canceled
    let recorded := call.noteAt 0 .cancellation
    match mode with
    | .skip => { call := chosen.completed, sent := [(call.caller, last)], recorded }
    | .kill =>
      { call := call.begun.interrupted, sent := call.interrupts mode mode.reason, recorded }
    | .killNoWait => { chosen.stop (some last) mode mode.reason with recorded }
  | .timeout =>
    { call.stop (some (Dealer.ended call "call.timeout" .timeout)) .killNoWait "call.timeout" with
      recorded := call.noteAt 0 .cancellation }
  | .abandonment => call.stop none .killNoWait "caller.lost"

end CallRouter.Call
