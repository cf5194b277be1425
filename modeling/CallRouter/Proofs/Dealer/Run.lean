import CallRouter.Proofs.Call.Replies
import CallRouter.Proofs.Dealer.Dispatch
import CallRouter.Proofs.Message.Valid
import CallRouter.Proofs.Statistics
import Mathlib.Logic.Relation

/-!
Runs of the dealer: sequences of messages, looks at the clock and closings of sessions, in any
order. Whatever a step of a run does to calls that are under way consists of turns of single calls,
each for a cause that lies in the step.
-/

namespace CallRouter.Dealer

inductive Operation where
  | handle (now : Time) (draw session : Nat) (message : Message)
  | checkTimeout (now : Time) (session : Nat)
  | closeSession (session : Nat)

def Operation.IsValid : Operation → Prop
  | .handle _ _ _ message => message.IsValid
  | _ => True

/-- Sessions that announce every feature and count their requests. -/
def obliging : Peers where
  supports _ _ _ := true
  requestId _ count := requestIdAfter count

def step (peers : Peers) (dealer : Dealer) : Operation → Dealer
  | .handle now draw session message =>
    match dealer.handle peers now draw session message with
    | .ok dealer => dealer
    | .error _ => dealer
  | .checkTimeout now session => (dealer.checkTimeout peers now session).2
  | .closeSession session => dealer.closeSession session

def run (peers : Peers) (options : Options) (operations : List Operation) : Dealer :=
  operations.foldl (step peers) { options }

theorem run_concat (peers : Peers) (options : Options) (operations : List Operation)
    (operation : Operation) :
    run peers options (operations ++ [operation]) =
      (run peers options operations).step peers operation := by
  simp [run]

structure Tracks (dealer : Dealer) (number : Nat) (call : Call) (index : Nat)
    (target : Call.Target) : Prop where
  tracked : dealer.tracked.find? target.key = some (number, index)
  located : call.targets[index]? = some target
  left : target.state.isFinished = false

inductive Cause (peers : Peers) (dealer : Dealer) (number : Nat) (call : Call) :
    Operation → Call.Event → Prop
  | progress {index : Nat} {target : Call.Target} {now : Time} {draw : Nat} {message : Message}
      {options : Dict} {payload : Payload} (tracks : dealer.Tracks number call index target)
      (reads : Rpc.ofMessage message = .ok (.yield target.invocation options payload))
      (flag : options.flag Dict.Key.progress = true) (agreed : target.progressive = true)
      (opened : call.isCompleted = false) :
      Cause peers dealer number call (.handle now draw target.callee message) (.progress payload)
  | result {index : Nat} {target : Call.Target} {now : Time} {draw : Nat} {message : Message}
      {options : Dict} {payload : Payload} (tracks : dealer.Tracks number call index target)
      (reads : Rpc.ofMessage message = .ok (.yield target.invocation options payload))
      (flag : options.flag Dict.Key.progress = false) :
      Cause peers dealer number call (.handle now draw target.callee message)
        (.result index payload (now - call.started))
  | failure {index : Nat} {target : Call.Target} {now : Time} {draw : Nat} {message : Message}
      {details : Dict} {error : String} {payload : Payload}
      (tracks : dealer.Tracks number call index target)
      (reads : Rpc.ofMessage message =
        .ok (.error .invocation target.invocation details error payload)) :
      Cause peers dealer number call (.handle now draw target.callee message)
        (.failure index details error payload)
  | loss {index : Nat} {target : Call.Target} (tracks : dealer.Tracks number call index target) :
      Cause peers dealer number call (.closeSession target.callee) (.loss index)
  | cancellation {now : Time} {draw : Nat} {message : Message} {options : Dict}
      {choice : Option CancelMode}
      (reads : Rpc.ofMessage message = .ok (.cancel call.request options))
      (chosen : options.choice CancelMode.ofName Dict.Key.mode = .ok choice)
      (opened : call.isCompleted = false)
      (pending : choice.getD dealer.options.defaultCancelMode = .kill → call.state = .pending) :
      Cause peers dealer number call (.handle now draw call.caller message)
        (.cancellation (choice.getD dealer.options.defaultCancelMode))
  | timeout {now : Time} {session : Nat} {target : Call.Target}
      (opened : call.isCompleted = false) (overdue : call.isOverdue now = true)
      (active : target ∈ call.activeTargets)
      (idle : peers.supports target.callee .callee Feature.callTimeout = false) :
      Cause peers dealer number call (.checkTimeout now session) .timeout
  | abandonment (opened : call.isCompleted = false) :
      Cause peers dealer number call (.closeSession call.caller) .abandonment

def Operation.Cancels (default mode : CancelMode) (operation : Operation) : Prop :=
  ∃ now draw session message request options choice,
    operation = .handle now draw session message ∧
    Rpc.ofMessage message = .ok (.cancel request options) ∧
    options.choice CancelMode.ofName Dict.Key.mode = .ok choice ∧ choice.getD default = mode

section Cancellation

variable {peers : Peers} {dealer : Dealer} {number : Nat} {call : Call}

theorem Cause.cancels {operation : Operation} {mode : CancelMode}
    (cause : Cause peers dealer number call operation (.cancellation mode)) :
    operation.Cancels dealer.options.defaultCancelMode mode := by
  generalize same : Call.Event.cancellation mode = event at cause
  cases cause with
  | @cancellation now draw message options choice reads chosen opened pending =>
    exact ⟨now, draw, call.caller, message, call.request, options, choice, rfl, reads, chosen,
      (Call.Event.cancellation.inj same).symm⟩
  | _ => cases same

theorem Cause.of_cancels {operation : Operation} {event : Call.Event} {mode : CancelMode}
    (cause : Cause peers dealer number call operation event)
    (cancels : operation.Cancels dealer.options.defaultCancelMode mode) :
    event = .cancellation mode := by
  obtain ⟨now, draw, session, message, request, options, choice, rfl, reads, chosen, rfl⟩ := cancels
  cases cause <;> simp_all

end Cancellation

theorem outgoing_eq (number : Option Nat) (session : Nat) (rpc : Rpc) :
    outgoing number session rpc =
      if rpc.isSendable then [.send session rpc.message number] else [] := by
  unfold outgoing Rpc.isSendable
  cases built : rpc.toMessage .standard with
  | error error => rfl
  | ok message =>
    have same : message = rpc.message := by
      simp only [Rpc.toMessage, Message.Registry.build, Message.Registry.shape?_standard, bind,
        Except.bind, pure, Except.pure] at built
      split at built
      · cases built
      · exact (Except.ok.inj built).symm
    rw [same]
    rfl

structure Aside (dealer later : Dealer) : Prop where
  options : later.options = dealer.options
  calls : later.calls = dealer.calls
  tracked : later.tracked = dealer.tracked
  cancelable : later.cancelable = dealer.cancelable
  drawn : later.drawn = dealer.drawn
  statistics : dealer.statistics.Extends later.statistics
  effects : ∃ new, later.effects = dealer.effects ++ new ∧
    ∀ session message about, Effect.send session message about ∈ new →
      about = none ∧ message.kind.isReply = true

theorem aside_count {dealer : Dealer} {statistics : Statistics}
    (more : dealer.statistics.Extends statistics) : dealer.Aside { dealer with statistics } :=
  ⟨rfl, rfl, rfl, rfl, rfl, more, [], by simp, by simp⟩

theorem aside_trans {dealer later last : Dealer} (first : dealer.Aside later)
    (second : later.Aside last) : dealer.Aside last := by
  obtain ⟨new, grown, silent⟩ := first.effects
  obtain ⟨newer, grown', silent'⟩ := second.effects
  refine ⟨second.options.trans first.options, second.calls.trans first.calls,
    second.tracked.trans first.tracked, second.cancelable.trans first.cancelable,
    second.drawn.trans first.drawn, Statistics.extends_trans first.statistics second.statistics,
    new ++ newer, ?_, ?_⟩
  · rw [grown', grown, List.append_assoc]
  · intro session message about member
    rcases List.mem_append.mp member with before | after
    · exact silent session message about before
    · exact silent' session message about after

theorem aside_send (dealer : Dealer) (session : Nat) {rpc : Rpc}
    (reply : rpc.kind.isReply = true) : dealer.Aside (dealer.send session rpc none) := by
  rw [send_eq]
  refine ⟨rfl, rfl, rfl, rfl, rfl, Statistics.extends_refl _, outgoing none session rpc, rfl, ?_⟩
  intro receiver message about member
  rw [outgoing_eq] at member
  split at member
  · obtain ⟨-, rfl, rfl⟩ := Effect.send.inj (List.mem_singleton.mp member)
    exact ⟨rfl, reply⟩
  · cases member

theorem aside_refuse (dealer : Dealer) (session : Nat) (kind : Message.Kind) (request : Nat)
    (refusal : Refusal) : dealer.Aside (dealer.refuse session kind request refusal) :=
  aside_send dealer session rfl

/-- What a step of the dealer is made of, except that a new call is dispatched. -/
inductive Move (peers : Peers) (operation : Operation) (dealer : Dealer) : Dealer → Prop
  | aside {later : Dealer} (aside : dealer.Aside later) : Move peers operation dealer later
  | turn {number : Nat} {call : Call} {event : Call.Event}
      (found : dealer.calls[number]? = some call)
      (cause : Cause peers dealer number call operation event) :
      Move peers operation dealer (dealer.turn number call event)
  | retire {session : Nat} (closing : operation = .closeSession session) :
      Move peers operation dealer
        { dealer with cancelable := dealer.cancelable.filter fun key _ => key.1 ≠ session }

inductive Dispatches (peers : Peers) (dealer : Dealer) : Operation → Call → Dealer → Prop
  | dispatch {now : Time} {draw caller request : Nat} {message : Message} {options : Dict}
      {uri : String} {payload : Payload} {terms : Call.Options} {entry : Registration.Entry}
      {registrations : List Registration} {chosen : Dealer}
      (reads : Rpc.ofMessage message = .ok (.call request options uri payload))
      (valid : Uri.isProcedure .exact uri = true)
      (agreed : callOptions peers caller options = .ok terms)
      (resolved : dealer.directory.resolve uri dealer.options.metaApi = some (.entry entry))
      (choice : dealer.chooseRegistrations entry terms.receiveProgress draw =
        (registrations, chosen))
      (any : registrations ≠ []) :
      Dispatches peers dealer (.handle now draw caller message)
        (chosen.newCall peers now caller request uri terms registrations)
        (chosen.dispatch peers now caller request uri terms registrations payload)

end CallRouter.Dealer
