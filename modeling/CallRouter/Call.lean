import CallRouter.Pattern
import CallRouter.Time

/-!
Calls on their way. A call is dispatched to one or more targets. The call and each of its targets
move through their states in one direction, so that of all attempts to end a call or a target
exactly one succeeds.
-/

namespace CallRouter

namespace Call

inductive State where
  | pending
  | canceling
  | completed
  deriving DecidableEq, Repr, Inhabited

inductive Outcome where
  | result
  | error
  deriving DecidableEq, Repr, Inhabited

inductive Target.State where
  | active
  | interrupted
  | finished (outcome : Outcome)
  deriving DecidableEq, Repr, Inhabited

def Target.State.isFinished : Target.State → Bool
  | finished _ => true
  | _ => false

structure Target where
  registration : Nat
  callee : Nat
  pattern : Pattern
  invocation : Nat
  progressive : Bool
  state : Target.State := .active
  deriving DecidableEq, Repr

structure Options where
  receiveProgress : Bool := false
  timeout : Option Nat := none
  discloseMe : Bool := false
  deriving DecidableEq, Repr, Inhabited

end Call

structure Call where
  caller : Nat
  request : Nat
  procedure : String
  options : Call.Options
  started : Time
  targets : List Call.Target
  state : Call.State := .pending
  cancelMode : Option CancelMode := none
  remaining : Nat := targets.length
  deriving DecidableEq, Repr

namespace Call

def isCompleted (call : Call) : Bool := call.state == .completed

def activeTargets (call : Call) : List Target :=
  call.targets.filter fun target => target.state == .active

def isOverdue (call : Call) (now : Time) : Bool :=
  call.options.timeout.any fun timeout => call.started + Time.milliseconds timeout ≤ now

def setCancelMode (call : Call) (mode : CancelMode) : Call := { call with cancelMode := some mode }

def beginCancel? (call : Call) (mode : CancelMode) : Option Call :=
  if call.state = .pending then some ({ call with state := .canceling }.setCancelMode mode)
  else none

def complete? (call : Call) : Option Call :=
  if call.isCompleted then none else some { call with state := .completed }

def interrupt? (call : Call) (index : Nat) : Option (Target × Call) := do
  let target ← call.targets[index]?
  if target.state = .active then
    let targets := call.targets.set index { target with state := .interrupted }
    return (target, { call with targets })
  else none

/-- Finishes a target, which can be done once, and tells how many have not finished. -/
def finish? (call : Call) (index : Nat) (outcome : Outcome) : Option (Nat × Call) := do
  let target ← call.targets[index]?
  if target.state.isFinished then none
  else
    let targets := call.targets.set index { target with state := .finished outcome }
    let remaining := call.remaining - 1
    return (remaining, { call with targets, remaining })

def interruptActive (call : Call) : List Target × Call :=
  (List.range call.targets.length).foldl (fun (interrupted, call) index =>
    match call.interrupt? index with
    | some (target, call) => (interrupted ++ [target], call)
    | none => (interrupted, call)) ([], call)

end Call

end CallRouter
