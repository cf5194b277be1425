import CallRouter.Dealer.Basic
import CallRouter.Registration.Meta

namespace CallRouter.Dealer

def timeoutOf (options : Dict) : Except Refusal (Option Nat) :=
  match options.get? Dict.Key.timeout with
  | none | some .null => .ok none
  | some value =>
    match value.nat? with
    | some 0 => .ok none
    | some timeout => .ok (some timeout)
    | none =>
      .error (.invalidArgument ("timeout must be a non-negative integer, got " ++ value.compact))

def callOptions (peers : Peers) (caller : Nat) (options : Dict) : Except Refusal Call.Options := do
  let timeout ← timeoutOf options
  let receiveProgress := options.flag Dict.Key.receiveProgress &&
    peers.supports caller .caller Feature.progressiveCallResults
  return { receiveProgress, timeout, discloseMe := options.flag Dict.Key.discloseMe }

def invocationDetails (peers : Peers) (options : Options) (call : Call) (target : Call.Target) :
    Dict :=
  let caller := if call.options.discloseMe && options.discloseCaller then
    [(Dict.Key.caller, Json.ofNat call.caller)] else []
  let procedure := if target.pattern.policy = .exact then [] else
    [(Dict.Key.procedure, Json.text call.procedure)]
  let progress := if target.progressive then [(Dict.Key.receiveProgress, Json.bool true)] else []
  let timeout := match call.options.timeout with
    | some timeout =>
      if peers.supports target.callee .callee Feature.callTimeout then
        [(Dict.Key.timeout, Json.ofNat timeout)]
      else []
    | none => []
  caller ++ procedure ++ progress ++ timeout

def drawTargets (peers : Peers) (receiveProgress : Bool) :
    Dealer → List Registration → List Call.Target × Dealer
  | dealer, [] => ([], dealer)
  | dealer, registration :: rest =>
    let callee := registration.session
    let (invocation, dealer) := dealer.drawRequestId peers callee
    let progressive :=
      receiveProgress && peers.supports callee .callee Feature.progressiveCallResults
    let target : Call.Target :=
      { registration := registration.id, callee, pattern := registration.pattern, invocation,
        progressive }
    let (targets, dealer) := drawTargets peers receiveProgress dealer rest
    (target :: targets, dealer)

def track (number : Nat) : Nat → List Call.Target → Dealer → Dealer
  | _, [], dealer => dealer
  | index, target :: rest, dealer =>
    let tracked := dealer.tracked.insert (target.callee, target.invocation) (number, index)
    track number (index + 1) rest { dealer with tracked }

def dispatch (dealer : Dealer) (peers : Peers) (now : Time) (caller request : Nat) (uri : String)
    (options : Call.Options) (registrations : List Registration) (payload : Payload) : Dealer :=
  let (targets, dealer) := drawTargets peers options.receiveProgress dealer registrations
  let call : Call := { caller, request, procedure := uri, options, started := now, targets }
  let number := dealer.calls.length
  let cancelable := if peers.supports caller .caller Feature.callCanceling then
    dealer.cancelable.insert (caller, request) number else dealer.cancelable
  let dealer := track number 0 targets
    { dealer with calls := dealer.calls ++ [call], cancelable }
  targets.foldl (fun dealer target =>
    (dealer.record target.pattern .invocation).send target.callee
      (.invocation target.invocation target.registration
        (invocationDetails peers dealer.options call target) payload) (some number))
    (dealer.recordCall call .attempt)

/--
The registrations that a call of an entry goes to. A call that receives progress goes to all that
share the entry, any other call to the one to invoke next.
-/
def chooseRegistrations (dealer : Dealer) (entry : Registration.Entry) (receiveProgress : Bool)
    (draw : Nat) : List Registration × Dealer :=
  if dealer.options.fanOut && entry.invoke.isShared && receiveProgress then
    (dealer.directory.members entry, dealer)
  else
    let (chosen, directory) := dealer.directory.select entry draw
    (chosen.toList, { dealer with directory })

def call? (dealer : Dealer) (peers : Peers) (now : Time) (draw caller request : Nat)
    (options : Dict) (uri : String) (payload : Payload) : Except Refusal Dealer := do
  if !Uri.isProcedure .exact uri then throw (.invalidUri uri)
  let callOptions ← callOptions peers caller options
  match dealer.directory.resolve uri dealer.options.metaApi with
  | none => throw (.noSuchProcedure uri)
  | some (.meta_ procedure) =>
    let answer ← procedure.answer dealer.directory (payload.args.getD [])
    return dealer.send caller (.result request [] (.ofArgs [answer])) none
  | some (.entry entry) =>
    match dealer.chooseRegistrations entry callOptions.receiveProgress draw with
    | ([], _) => throw (.noSuchProcedure uri)
    | (registrations, dealer) =>
      return dealer.dispatch peers now caller request uri callOptions registrations payload

def call (dealer : Dealer) (peers : Peers) (now : Time) (draw caller request : Nat)
    (options : Dict) (uri : String) (payload : Payload) : Dealer :=
  match dealer.call? peers now draw caller request options uri payload with
  | .ok dealer => dealer
  | .error refusal =>
    let missed := match refusal with
      | .noSuchProcedure _ => { dealer with statistics := dealer.statistics.recordMissed uri }
      | _ => dealer
    missed.refuse caller .call request refusal

end CallRouter.Dealer
