import CallRouter.Call
import CallRouter.Keyed
import CallRouter.Message.Standard
import CallRouter.Options
import CallRouter.Registration.Directory
import CallRouter.Rpc
import CallRouter.Statistics

/-!
The state of the dealer, and the effects that it has on the world: messages to sessions and
published events.

Every call that was dispatched keeps its number. An invocation is tracked while an answer to it is
awaited, by its callee and its id; a call that its caller may cancel is found by the caller and the
request.
-/

namespace CallRouter

structure Peers where
  supports : Nat → Role → String → Bool
  requestId : Nat → Nat → Nat

inductive Effect where
  | send (session : Nat) (message : Message) (call : Option Nat)
  | publish (event : Registration.Event)
  deriving DecidableEq, Repr

namespace Effect

def message? : Effect → Option (Nat × Message)
  | send session message _ => some (session, message)
  | publish _ => none

def event? : Effect → Option Registration.Event
  | publish event => some event
  | send .. => none

end Effect

structure Dealer.Options where
  defaultCancelMode : CancelMode := .killNoWait
  fanOut : Bool := true
  discloseCaller : Bool := true
  metaApi : Bool := true
  deriving DecidableEq, Repr, Inhabited

structure Dealer where
  options : Dealer.Options := {}
  directory : Registration.Directory := {}
  statistics : Statistics := Statistics.empty Statistics.defaultMissedLimit
  calls : List Call := []
  tracked : Keyed (Nat × Nat) (Nat × Nat) := Keyed.empty
  cancelable : Keyed (Nat × Nat) Nat := Keyed.empty
  drawn : Keyed Nat Nat := Keyed.empty
  effects : List Effect := []

namespace Dealer

instance : Inhabited Dealer := ⟨{}⟩

def features (options : Options) : List String :=
  [Feature.progressiveCallResults, Feature.callCanceling, Feature.callTimeout,
    Feature.sharedRegistration, Feature.patternBasedRegistration, Feature.callerIdentification] ++
    if options.metaApi then [Feature.registrationMetaApi] else []

def pending (dealer : Dealer) : Nat := dealer.tracked.size

def setCall (dealer : Dealer) (number : Nat) (call : Call) : Dealer :=
  { dealer with calls := dealer.calls.set number call }

def untrack (dealer : Dealer) (callee invocation : Nat) : Dealer :=
  { dealer with tracked := dealer.tracked.erase (callee, invocation) }

def perform (dealer : Dealer) (effect : Effect) : Dealer :=
  { dealer with effects := dealer.effects ++ [effect] }

def publish (dealer : Dealer) (events : List Registration.Event) : Dealer :=
  events.foldl (fun dealer event => dealer.perform (.publish event)) dealer

def send (dealer : Dealer) (session : Nat) (rpc : Rpc) (call : Option Nat) : Dealer :=
  match rpc.toMessage .standard with
  | .ok message => dealer.perform (.send session message call)
  | .error _ => dealer

def refuse (dealer : Dealer) (session : Nat) (kind : Message.Kind) (request : Nat)
    (refusal : Refusal) : Dealer :=
  dealer.send session
    (.error kind request [] refusal.uri.uri (.ofArgs [.text refusal.message])) none

def record (dealer : Dealer) (pattern : Pattern) (occurrence : Occurrence) : Dealer :=
  { dealer with statistics := dealer.statistics.record [pattern.uri] occurrence }

def recordCall (dealer : Dealer) (call : Call) (occurrence : Occurrence) : Dealer :=
  match call.targets with
  | [] => dealer
  | target :: _ => dealer.record target.pattern occurrence

def drawRequestId (dealer : Dealer) (peers : Peers) (session : Nat) : Nat × Dealer :=
  let count := (dealer.drawn.find? session).getD 0
  (peers.requestId session count, { dealer with drawn := dealer.drawn.insert session (count + 1) })

/-- Makes a call impossible to cancel, unless its request has been used for a later call. -/
def forget (dealer : Dealer) (number : Nat) (call : Call) : Dealer :=
  if dealer.cancelable.find? (call.caller, call.request) = some number then
    { dealer with cancelable := dealer.cancelable.erase (call.caller, call.request) }
  else dealer

def conclude? (dealer : Dealer) (number : Nat) (call : Call) (reply : Rpc) : Option Dealer :=
  call.complete?.map fun completed =>
    ((dealer.setCall number completed).send call.caller reply (some number)).forget number call

def reasonOnly (reason : String) : Dict := [(Dict.Key.reason, .text reason)]

def ended (call : Call) (reason : String) (error : ErrorUri) : Rpc :=
  .error .call call.request (reasonOnly reason) error.uri .empty

/--
Sends an interrupt to every target of a call that is still active. With `release` these targets are
no longer tracked, so that late answers are ignored.
-/
def interrupt (dealer : Dealer) (number : Nat) (mode : CancelMode) (reason : String)
    (release : Bool) : Dealer :=
  match dealer.calls[number]? with
  | none => dealer
  | some call =>
    let (targets, call) := call.interruptActive
    let options : Dict := [(Dict.Key.mode, .text mode.name), (Dict.Key.reason, .text reason)]
    targets.foldl (fun dealer target =>
      let dealer := if release then dealer.untrack target.callee target.invocation else dealer
      dealer.send target.callee (.interrupt target.invocation options) (some number))
      (dealer.setCall number call)

end Dealer

end CallRouter
