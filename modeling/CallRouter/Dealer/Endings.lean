import CallRouter.Dealer.Basic

namespace CallRouter.Dealer

def cancelable? (dealer : Dealer) (caller request : Nat) : Option (Nat × Call) := do
  let number ← dealer.cancelable.find? (caller, request)
  let call ← dealer.calls[number]?
  if call.isCompleted then none else return (number, call)

def cancelCall (dealer : Dealer) (number : Nat) (call : Call) (mode : CancelMode) : Dealer :=
  match mode with
  | .kill =>
    match call.beginCancel? mode with
    | none => dealer
    | some canceling =>
      ((dealer.setCall number canceling).interrupt number mode mode.reason false).recordCall call
        .cancellation
  | .skip | .killNoWait =>
    let call := call.setCancelMode mode
    match dealer.conclude? number call (ended call mode.reason .canceled) with
    | none => dealer
    | some dealer =>
      let dealer := if mode = .killNoWait then dealer.interrupt number mode mode.reason true
        else dealer
      dealer.recordCall call .cancellation

def cancel (dealer : Dealer) (caller request : Nat) (options : Dict) : Dealer :=
  match options.choice CancelMode.ofName Dict.Key.mode with
  | .error unknown => dealer.refuse caller .cancel request (.ofUnknownOption unknown)
  | .ok choice =>
    match dealer.cancelable? caller request with
    | none => dealer.refuse caller .cancel request (.noSuchCall request)
    | some (number, call) =>
      dealer.cancelCall number call (choice.getD dealer.options.defaultCancelMode)

/--
Ends a call that ran out of time. A call all of whose active targets watch the time themselves is
left to them.
-/
def expire? (dealer : Dealer) (peers : Peers) (number : Nat) : Option Dealer := do
  let call ← dealer.calls[number]?
  if call.activeTargets.all fun target =>
      peers.supports target.callee .callee Feature.callTimeout then none
  else
    let dealer ← dealer.conclude? number call (ended call "call.timeout" .timeout)
    return (dealer.recordCall call .cancellation).interrupt number .killNoWait "call.timeout" true

def expireAll (dealer : Dealer) (peers : Peers) (numbers : List Nat) : Nat × Dealer :=
  numbers.foldl (fun (count, dealer) number =>
    match dealer.expire? peers number with
    | some dealer => (count + 1, dealer)
    | none => (count, dealer)) (0, dealer)

def overdue (dealer : Dealer) (now : Time) (session : Nat) : List Nat :=
  (dealer.tracked.filter fun key _ => key.1 = session).values.filterMap fun (number, _) =>
    match dealer.calls[number]? with
    | some call => if !call.isCompleted && call.isOverdue now then some number else none
    | none => none

def checkTimeout (dealer : Dealer) (peers : Peers) (now : Time) (session : Nat) : Nat × Dealer :=
  dealer.expireAll peers (dealer.overdue now session)

def awaited (dealer : Dealer) : List Nat := (dealer.tracked.keys.map (·.1)).eraseDups

def checkTimeouts (dealer : Dealer) (peers : Peers) (now : Time) : Nat × Dealer :=
  dealer.awaited.foldl (fun (count, dealer) session =>
    let (expired, dealer) := dealer.checkTimeout peers now session
    (count + expired, dealer)) (0, dealer)

/-- A target is lost with its session. The loss of the last one ends the call. -/
def loseTarget (dealer : Dealer) (number index : Nat) : Dealer :=
  match dealer.calls[number]? with
  | none => dealer
  | some call =>
    match call.finish? index .error with
    | none => dealer
    | some (remaining, call) =>
      let dealer := dealer.setCall number call
      if remaining = 0 then
        (dealer.conclude? number call (ended call "callee.lost" .canceled)).getD dealer
      else dealer

/-- A call is lost with its caller: nobody is answered, and the targets are released. -/
def loseCall (dealer : Dealer) (number : Nat) : Dealer :=
  match dealer.calls[number]? >>= Call.complete? with
  | none => dealer
  | some call => (dealer.setCall number call).interrupt number .killNoWait "caller.lost" true

def closeSession (dealer : Dealer) (session : Nat) : Dealer :=
  let (events, directory) := dealer.directory.closeSession session
  let served := (dealer.tracked.filter fun key _ => key.1 = session).values
  let dealer := { dealer with
    directory, tracked := dealer.tracked.filter fun key _ => key.1 ≠ session }.publish events
  let dealer := served.foldl (fun dealer (number, index) => dealer.loseTarget number index) dealer
  let dealer := { dealer with
    cancelable := dealer.cancelable.filter fun key _ => key.1 ≠ session }
  let made := dealer.tracked.values.filterMap fun (number, _) =>
    match dealer.calls[number]? with
    | some call => if call.caller = session then some number else none
    | none => none
  made.foldl loseCall dealer

end CallRouter.Dealer
