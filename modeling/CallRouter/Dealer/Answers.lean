import CallRouter.Dealer.Basic

namespace CallRouter.Dealer

def target? (dealer : Dealer) (callee invocation : Nat) :
    Option (Nat × Call × Nat × Call.Target) := do
  let (number, index) ← dealer.tracked.find? (callee, invocation)
  let call ← dealer.calls[number]?
  let target ← call.targets[index]?
  return (number, call, index, target)

def sendProgress (dealer : Dealer) (number : Nat) (call : Call) (payload : Payload) : Dealer :=
  if call.isCompleted then dealer
  else
    dealer.send call.caller (.result call.request [(Dict.Key.progress, .bool true)] payload)
      (some number)

def yieldProgress (dealer : Dealer) (callee invocation : Nat) (payload : Payload) : Dealer :=
  match dealer.target? callee invocation with
  | none => dealer
  | some (number, call, _, target) =>
    if target.progressive && !target.state.isFinished then dealer.sendProgress number call payload
    else dealer

def yieldResult (dealer : Dealer) (now : Time) (callee invocation : Nat) (payload : Payload) :
    Dealer :=
  match dealer.target? callee invocation with
  | none => dealer
  | some (number, call, index, target) =>
    let dealer := dealer.untrack callee invocation
    match call.finish? index .result with
    | none => dealer
    | some (remaining, call) =>
      let dealer :=
        (dealer.setCall number call).record target.pattern (.completion (now - call.started))
      if 0 < remaining then dealer.sendProgress number call payload
      else (dealer.conclude? number call (.result call.request [] payload)).getD dealer

def fail (dealer : Dealer) (callee invocation : Nat) (details : Dict) (error : String)
    (payload : Payload) : Dealer :=
  match dealer.target? callee invocation with
  | none => dealer
  | some (number, call, index, target) =>
    let dealer := dealer.untrack callee invocation
    match call.finish? index .error with
    | none => dealer
    | some (_, call) =>
      let dealer := (dealer.setCall number call).record target.pattern .failure
      match dealer.conclude? number call (.error .call call.request details error payload) with
      | none => dealer
      | some dealer =>
        if call.cancelMode = some .kill then dealer
        else dealer.interrupt number .killNoWait CancelMode.killNoWait.reason true

end CallRouter.Dealer
