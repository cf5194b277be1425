import CallRouter.Proofs.Dealer.NoneLost
import CallRouter.Proofs.Dealer.Refusals
import CallRouter.Proofs.Dealer.Told

/-!
What the dealer tries to send. A message leaves it only if it has the shape of its kind. As long as
the ids that the dealer stores are valid, all that it tries to send has that shape, and nothing is
dropped.
-/

namespace CallRouter

structure Message.IsOutbound (message : Message) : Prop where
  valid : message.IsValid
  flow : (Message.Shape.standard message.kind).routerMaySend = true

theorem Rpc.isOutbound_of_isSendable {rpc : Rpc} (sendable : rpc.isSendable = true)
    (flow : (Message.Shape.standard rpc.kind).routerMaySend = true) : rpc.message.IsOutbound :=
  ⟨Message.isValid_of_validate (isSendable_iff.mp sendable), flow⟩

theorem Message.IsOutbound.isSendable {rpc : Rpc} (outbound : rpc.message.IsOutbound) :
    rpc.isSendable = true :=
  Rpc.isSendable_iff.mpr outbound.valid.validate

theorem Rpc.isOutbound_registered {request registration : Nat} (valid : isValidId request = true)
    (numbered : isValidId registration = true) :
    (registered request registration).message.IsOutbound := by
  refine isOutbound_of_isSendable (isSendable_iff.mpr ?_) rfl
  rw [Message.Shape.validate_eq_ok_iff]
  refine ⟨[.request, .registration], by simp [kind, Message.Shape.standard], rfl, ?_⟩
  simp [fields, Message.Shape.mistyped?, Message.FieldType.accepts, Message.Field.request,
    Message.Field.registration, valid, numbered]

theorem Rpc.isOutbound_unregistered {request : Nat} (valid : isValidId request = true) :
    (unregistered request none).message.IsOutbound := by
  refine isOutbound_of_isSendable (isSendable_iff.mpr ?_) rfl
  rw [Message.Shape.validate_eq_ok_iff]
  refine ⟨[.request], by simp [kind, Message.Shape.standard], rfl, ?_⟩
  simp [fields, Message.Shape.mistyped?, Message.FieldType.accepts, Message.Field.request, valid]

namespace Effect

def messages (effects : List Effect) : List (Nat × Message) := effects.filterMap message?

@[simp] theorem messages_nil : messages [] = [] := rfl

@[simp] theorem messages_append (effects more : List Effect) :
    messages (effects ++ more) = messages effects ++ messages more := List.filterMap_append

@[simp] theorem messages_publish (events : List Registration.Event) :
    messages (events.map .publish) = [] := by
  simp [messages, message?]

end Effect

namespace Call

structure ValidIds (call : Call) : Prop where
  request : isValidId call.request = true
  invocations : ∀ target ∈ call.targets, isValidId target.invocation = true

theorem ValidIds.turn {call : Call} (valid : call.ValidIds) (event : Event) :
    (call.turn event).call.ValidIds where
  request := by
    rw [request_turn]
    exact valid.request
  invocations := by
    intro after member
    obtain ⟨index, located⟩ := List.mem_iff_getElem?.mp member
    obtain ⟨target, there, same, -⟩ := advances_turn call event index after located
    have kept := congrArg Target.invocation same
    exact kept ▸ valid.invocations target (List.mem_of_getElem? there)

end Call

namespace Dealer

open Relation Registration

variable {peers : Peers} {operation : Operation} {dealer middle later : Dealer} {call : Call}
  {session : Nat}

def denial (kind : Message.Kind) (request : Nat) (refusal : Refusal) : Rpc :=
  .error kind request [] refusal.uri.uri (.ofArgs [.text refusal.message])

section Attempts

variable (peers : Peers) (dealer : Dealer)

def registerAttempts (now : Time) (session request : Nat) (options : Dict) (uri : String) :
    List (Nat × Rpc) :=
  match dealer.register? now session options uri with
  | .ok (registration, _) => [(session, .registered request registration.id)]
  | .error refusal => [(session, denial .register request refusal)]

def unregisterAttempts (session request registration : Nat) : List (Nat × Rpc) :=
  match dealer.unregister? session registration with
  | .ok _ => [(session, .unregistered request none)]
  | .error refusal => [(session, denial .unregister request refusal)]

def callMessages (now : Time) (draw caller request : Nat) (options : Dict) (uri : String)
    (payload : Payload) : List (Nat × Rpc) :=
  match dealer.directory.resolve uri dealer.options.metaApi, callOptions peers caller options with
  | some (.meta_ procedure), _ =>
    match procedure.answer dealer.directory (payload.args.getD []) with
    | .ok answer => [(caller, .result request [] (.ofArgs [answer]))]
    | .error _ => []
  | some (.entry entry), .ok terms =>
    let (registrations, chosen) := dealer.chooseRegistrations entry terms.receiveProgress draw
    invocations peers dealer.options
      (chosen.newCall peers now caller request uri terms registrations) payload
  | _, _ => []

def callAttempts (now : Time) (draw caller request : Nat) (options : Dict) (uri : String)
    (payload : Payload) : List (Nat × Rpc) :=
  match dealer.call? peers now draw caller request options uri payload with
  | .ok _ => dealer.callMessages peers now draw caller request options uri payload
  | .error refusal => [(caller, denial .call request refusal)]

def cancelAttempts (caller request : Nat) (options : Dict) : List (Nat × Rpc) :=
  match options.choice CancelMode.ofName Dict.Key.mode with
  | .error unknown => [(caller, denial .cancel request (.ofUnknownOption unknown))]
  | .ok choice =>
    match dealer.cancelable? caller request with
    | none => [(caller, denial .cancel request (.noSuchCall request))]
    | some (_, call) =>
      let mode := choice.getD dealer.options.defaultCancelMode
      if mode = .kill ∧ call.state ≠ .pending then [] else (call.turn (.cancellation mode)).sent

def yieldAttempts (now : Time) (callee invocation : Nat) (options : Dict) (payload : Payload) :
    List (Nat × Rpc) :=
  match dealer.target? callee invocation with
  | none => []
  | some (_, call, index, target) =>
    if options.flag Dict.Key.progress then
      if target.progressive && !target.state.isFinished && !call.isCompleted then
        (call.turn (.progress payload)).sent
      else []
    else (call.turn (.result index payload (now - call.started))).sent

def failAttempts (callee invocation : Nat) (details : Dict) (error : String) (payload : Payload) :
    List (Nat × Rpc) :=
  match dealer.target? callee invocation with
  | none => []
  | some (_, call, index, _) => (call.turn (.failure index details error payload)).sent

end Attempts

def expiryAttempts (peers : Peers) : Dealer → List Nat → List (Nat × Rpc)
  | _, [] => []
  | dealer, number :: numbers =>
    match dealer.calls[number]?, dealer.expire? peers number with
    | some call, some later => (call.turn .timeout).sent ++ expiryAttempts peers later numbers
    | _, _ => expiryAttempts peers dealer numbers

def attempts (peers : Peers) (dealer : Dealer) : Operation → List (Nat × Rpc)
  | .handle now draw session message =>
    match Rpc.ofMessage message with
    | .ok (.register request options uri) =>
      dealer.registerAttempts now session request options uri
    | .ok (.unregister request registration) =>
      dealer.unregisterAttempts session request registration
    | .ok (.call request options uri payload) =>
      dealer.callAttempts peers now draw session request options uri payload
    | .ok (.cancel request options) => dealer.cancelAttempts session request options
    | .ok (.yield invocation options payload) =>
      dealer.yieldAttempts now session invocation options payload
    | .ok (.error .invocation invocation details error payload) =>
      dealer.failAttempts session invocation details error payload
    | _ => []
  | .checkTimeout now session => expiryAttempts peers dealer (dealer.overdue now session)
  | .closeSession session =>
    let order := Order.listed dealer session
    lossAttempts order.left (order.served.map (·.2)) ++
      abandonmentAttempts order.severed (order.severed.madeBy session)

structure ValidIds (dealer : Dealer) : Prop extends Linked dealer where
  numbered : dealer.directory.Numbered
  calls : ∀ call ∈ dealer.calls, call.ValidIds

theorem validIds_initial (options : Options) : ({ options } : Dealer).ValidIds where
  toLinked := linked_initial options
  numbered := Directory.numbered_empty
  calls := by simp

structure Delivers (dealer : Dealer) (attempts : List (Nat × Rpc)) (later : Dealer) : Prop where
  ids : later.ValidIds
  outbound : ∀ attempt ∈ attempts, attempt.2.message.IsOutbound
  sent : Effect.messages later.effects = Effect.messages dealer.effects ++
    attempts.map fun attempt => (attempt.1, attempt.2.message)

theorem delivers_refl (valid : dealer.ValidIds) : dealer.Delivers [] dealer :=
  ⟨valid, by simp, by simp⟩

theorem Delivers.trans {first second : List (Nat × Rpc)} (before : dealer.Delivers first middle)
    (after : middle.Delivers second later) : dealer.Delivers (first ++ second) later where
  ids := after.ids
  outbound := by
    intro attempt member
    rcases List.mem_append.mp member with early | late
    · exact before.outbound attempt early
    · exact after.outbound attempt late
  sent := by rw [after.sent, before.sent, List.map_append, List.append_assoc]

theorem messages_outgoing {about : Option Nat} {rpc : Rpc} (outbound : rpc.message.IsOutbound) :
    Effect.messages (outgoing about session rpc) = [(session, rpc.message)] := by
  rw [outgoing_eq, if_pos outbound.isSendable]
  rfl

theorem messages_mailing {sent : List (Nat × Rpc)}
    (outbound : ∀ attempt ∈ sent, attempt.2.message.IsOutbound) (number : Nat) :
    Effect.messages (mailing number sent) =
      sent.map fun attempt => (attempt.1, attempt.2.message) := by
  induction sent with
  | nil => rfl
  | cons attempt sent ih =>
    obtain ⟨session, rpc⟩ := attempt
    have first : rpc.message.IsOutbound := outbound (session, rpc) (by simp)
    have rest := ih fun other member => outbound other (by simp [member])
    rw [mailing_cons, Effect.messages_append, messages_outgoing first, rest]
    rfl

theorem delivers_aside (valid : dealer.ValidIds) (aside : dealer.Aside later)
    (numbered : later.directory.Numbered) {attempts : List (Nat × Rpc)}
    (outbound : ∀ attempt ∈ attempts, attempt.2.message.IsOutbound)
    (sent : Effect.messages later.effects = Effect.messages dealer.effects ++
      attempts.map fun attempt => (attempt.1, attempt.2.message)) :
    dealer.Delivers attempts later where
  ids :=
    { toLinked := linked_aside valid.toLinked aside
      numbered
      calls := aside.calls ▸ valid.calls }
  outbound := outbound
  sent := sent

theorem delivers_send (valid : dealer.ValidIds) (session : Nat) {rpc : Rpc}
    (outbound : rpc.message.IsOutbound) (reply : rpc.kind.isReply = true) :
    dealer.Delivers [(session, rpc)] (dealer.send session rpc none) := by
  refine delivers_aside valid (aside_send dealer session reply) ?_ ?_ ?_
  · rw [directory_send]
    exact valid.numbered
  · intro attempt member
    rw [List.mem_singleton.mp member]
    exact outbound
  · rw [send_eq, Effect.messages_append, messages_outgoing outbound]
    rfl

theorem isOutbound_denial {request : Nat} (valid : isValidId request = true)
    (kind : Message.Kind) (refusal : Refusal) : (denial kind request refusal).message.IsOutbound :=
  Rpc.isOutbound_of_isSendable
    (Rpc.isSendable_error valid refusal.uri.isValid_uri kind [] _) rfl

theorem delivers_refuse (valid : dealer.ValidIds) (session : Nat) (kind : Message.Kind)
    {request : Nat} (asked : isValidId request = true) (refusal : Refusal) :
    dealer.Delivers [(session, denial kind request refusal)]
      (dealer.refuse session kind request refusal) :=
  delivers_send valid session (isOutbound_denial asked kind refusal) rfl

theorem delivers_publish (valid : dealer.ValidIds) {directory : Directory}
    {statistics : Statistics} (more : dealer.statistics.Extends statistics)
    (numbered : directory.Numbered) (events : List Event) :
    dealer.Delivers [] { dealer with
      directory, statistics, effects := dealer.effects ++ events.map .publish } :=
  delivers_aside valid (aside_publish dealer directory more events) numbered (by simp) (by simp)

section Requests

variable {request : Nat} (valid : dealer.ValidIds) (asked : isValidId request = true)

include valid asked

theorem delivers_register (now : Time) (session : Nat) (options : Dict) (uri : String) :
    dealer.Delivers (dealer.registerAttempts now session request options uri)
      (dealer.register now session request options uri) := by
  unfold registerAttempts register
  cases done : dealer.register? now session options uri with
  | error refusal => exact delivers_refuse valid session .register asked refusal
  | ok answer =>
    obtain ⟨registration, later⟩ := answer
    obtain ⟨_, _, events, directory, _, _, _, _, made, rfl⟩ := register?_cases done
    have numbered := Directory.numbered_register valid.numbered made
    have live := Directory.valid_of_register valid.numbered made
    have published := delivers_publish valid (Statistics.extends_attach dealer.statistics [uri])
      numbered events
    exact published.trans
      (delivers_send published.ids session (Rpc.isOutbound_registered asked live) rfl)

theorem delivers_unregister (session id : Nat) :
    dealer.Delivers (dealer.unregisterAttempts session request id)
      (dealer.unregister session request id) := by
  unfold unregisterAttempts unregister
  cases done : dealer.unregister? session id with
  | error refusal => exact delivers_refuse valid session .unregister asked refusal
  | ok later =>
    obtain ⟨_, registration, events, directory, gone, rfl⟩ := unregister?_cases done
    have published := delivers_publish valid (Statistics.extends_refl dealer.statistics)
      (Directory.numbered_unregister valid.numbered gone) events
    exact published.trans
      (delivers_send published.ids session (Rpc.isOutbound_unregistered asked) rfl)

end Requests

theorem validIds_drawTargets {receiveProgress : Bool}
    (draws : ∀ session count, isValidId (peers.requestId session count) = true)
    (dealer : Dealer) (registrations : List Registration) :
    ∀ target ∈ (drawTargets peers receiveProgress dealer registrations).1,
      isValidId target.invocation = true := by
  induction registrations generalizing dealer with
  | nil => simp [drawTargets]
  | cons registration rest ih =>
    intro target member
    rcases List.mem_cons.mp member with rfl | later
    · exact draws _ _
    · exact ih _ target later

theorem Dispatches.invocations (dispatches : Dispatches peers dealer operation call later)
    (draws : ∀ session count, isValidId (peers.requestId session count) = true) :
    ∀ target ∈ call.targets, isValidId target.invocation = true := by
  cases dispatches with
  | dispatch => exact validIds_drawTargets draws _ _

theorem Dispatches.validIds (dispatches : Dispatches peers dealer operation call later)
    (draws : ∀ session count, isValidId (peers.requestId session count) = true)
    (asked : operation.IsValid) : call.ValidIds := by
  have invocations := dispatches.invocations draws
  cases dispatches with
  | dispatch reads => exact ⟨Rpc.isValidId_of_call asked reads, invocations⟩

theorem delivers_dispatch (valid : dealer.ValidIds)
    (draws : ∀ session count, isValidId (peers.requestId session count) = true)
    (dispatches : Dispatches peers dealer operation call later) (asked : operation.IsValid)
    {payload : Payload} (effects : later.effects = dealer.effects ++
      mailing dealer.calls.length (invocations peers dealer.options call payload)) :
    dealer.Delivers (invocations peers dealer.options call payload) later := by
  have ids := dispatches.validIds draws asked
  have outbound : ∀ attempt ∈ invocations peers dealer.options call payload,
      attempt.2.message.IsOutbound := by
    intro attempt member
    obtain ⟨target, among, rfl⟩ := List.mem_map.mp member
    exact Rpc.isOutbound_of_isSendable (Rpc.isSendable_invocation (ids.invocations target among)
      (dispatches.registered valid.numbered among) _ _) rfl
  refine ⟨⟨dispatches.linked valid.toLinked, ?_, ?_⟩, outbound, ?_⟩
  · rcases dispatches.directory with same | ⟨entry, draw, same⟩
    · rw [same]
      exact valid.numbered
    · rw [same]
      exact Directory.numbered_apply valid.numbered _
  · rw [dispatches.calls]
    intro other member
    rcases List.mem_append.mp member with before | new
    · exact valid.calls other before
    · rw [List.mem_singleton.mp new]
      exact ids
  · rw [effects, Effect.messages_append, messages_mailing outbound]

theorem delivers_call (valid : dealer.ValidIds)
    (draws : ∀ session count, isValidId (peers.requestId session count) = true) {now : Time}
    {draw caller request : Nat} {message : Message} {options : Dict} {uri : String}
    {payload : Payload} (asked : message.IsValid)
    (reads : Rpc.ofMessage message = .ok (.call request options uri payload)) :
    dealer.Delivers (dealer.callAttempts peers now draw caller request options uri payload)
      (dealer.call peers now draw caller request options uri payload) := by
  have id := Rpc.isValidId_of_call asked reads
  unfold callAttempts call
  cases answered : dealer.call? peers now draw caller request options uri payload with
  | error refusal =>
    cases refusal with
    | noSuchProcedure name =>
      have missed :
          dealer.Delivers [] { dealer with statistics := dealer.statistics.recordMissed uri } :=
        delivers_aside valid (aside_count (Statistics.extends_recordMissed dealer.statistics uri))
          valid.numbered (by simp) (by simp)
      exact missed.trans (delivers_refuse missed.ids caller .call id _)
    | _ => exact delivers_refuse valid caller .call id _
  | ok later =>
    simp only [callMessages]
    cases served_of_call? answered with
    | @answer procedure answer resolved given =>
      simp only [resolved, given]
      have outbound : (Rpc.result request [] (.ofArgs [answer])).message.IsOutbound :=
        Rpc.isOutbound_of_isSendable (Rpc.isSendable_result id [] _) rfl
      exact delivers_send valid caller outbound rfl
    | @dispatch terms entry registrations chosen called agreed resolved choice any =>
      simp only [resolved, agreed, choice]
      have dispatches : Dispatches peers dealer (.handle now draw caller message) _ _ :=
        .dispatch reads called agreed resolved choice any
      refine delivers_dispatch valid draws dispatches asked ?_
      rw [dispatch_eq, chooseRegistrations_frame choice]

section Turn

variable {number : Nat} {event : Call.Event}

theorem outbound_turn (ids : call.ValidIds) (admits : call.Admits event)
    (named : event.IsNamed) :
    ∀ attempt ∈ (call.turn event).sent, attempt.2.message.IsOutbound := by
  intro attempt member
  obtain ⟨receiver, rpc⟩ := attempt
  cases reply : rpc.kind.isReply with
  | true =>
    have heard : (receiver, rpc) ∈ (call.turn event).replies :=
      List.mem_filter.mpr ⟨member, reply⟩
    have hears := Call.turn_hears admits
    generalize (call.turn event).replies = replies at heard hears
    cases hears with
    | silence | abandonment => cases heard
    | progress payload opened agreed =>
      obtain ⟨-, rfl⟩ := Prod.mk.inj (List.mem_singleton.mp heard)
      exact Rpc.isOutbound_of_isSendable (Rpc.isSendable_result ids.request _ payload) rfl
    | closing last closing opened ended =>
      obtain ⟨-, rfl⟩ := Prod.mk.inj (List.mem_singleton.mp heard)
      refine Rpc.isOutbound_of_isSendable (closing.isSendable ids.request named) ?_
      cases closing.final <;> rfl
  | false =>
    have heard : (receiver, rpc) ∈ (call.turn event).notices :=
      List.mem_filter.mpr ⟨member, by simp [reply]⟩
    rcases Call.notices_cases admits with silent | ⟨targets, mode, reason, notices, -, stops⟩
    · rw [silent] at heard
      cases heard
    · rw [notices] at heard
      obtain ⟨target, among, same⟩ := List.mem_map.mp heard
      obtain ⟨-, rfl⟩ := Prod.mk.inj same
      obtain ⟨index, stop⟩ := stops target among
      have valid := ids.invocations target (List.mem_of_getElem? stop.located)
      exact Rpc.isOutbound_of_isSendable ((Rpc.isSendable_interrupt _ _).trans valid) rfl

theorem delivers_turn (valid : dealer.ValidIds) (found : dealer.calls[number]? = some call)
    (admits : call.Admits event) (named : event.IsNamed) :
    dealer.Delivers (call.turn event).sent (dealer.turn number call event) := by
  have ids := valid.calls call (List.mem_of_getElem? found)
  have outbound := outbound_turn ids admits named
  refine ⟨⟨linked_turn valid.toLinked found event, valid.numbered, ?_⟩, outbound, ?_⟩
  · intro other member
    rcases List.mem_or_eq_of_mem_set member with before | rfl
    · exact valid.calls other before
    · exact ids.turn event
  · simp only [turn, Effect.messages_append, messages_mailing outbound]

end Turn

theorem delivers_cancel (valid : dealer.ValidIds) {caller request : Nat} {message : Message}
    {options : Dict} (asked : message.IsValid)
    (reads : Rpc.ofMessage message = .ok (.cancel request options)) :
    dealer.Delivers (dealer.cancelAttempts caller request options)
      (dealer.cancel caller request options) := by
  have kind : message.kind = .cancel := (Rpc.kind_of_ofMessage reads).symm
  have id : isValidId request = true := Rpc.isValidId_of_request asked reads (by rw [kind]; rfl)
  unfold cancelAttempts cancel
  cases chosen : options.choice CancelMode.ofName Dict.Key.mode with
  | error unknown => exact delivers_refuse valid caller .cancel id _
  | ok choice =>
    cases located : dealer.cancelable.find? (caller, request) with
    | none =>
      have absent : dealer.cancelable? caller request = none := by simp [cancelable?, located]
      simp only [absent]
      exact delivers_refuse valid caller .cancel id _
    | some number =>
      obtain ⟨call, found, same, opened⟩ := valid.cancelable located
      obtain ⟨rfl, rfl⟩ := Prod.mk.inj same
      have cancelable : dealer.cancelable? call.caller call.request = some (number, call) := by
        simp [cancelable?, located, found, opened]
      simp only [cancelable]
      by_cases again : choice.getD dealer.options.defaultCancelMode = .kill ∧ call.state ≠ .pending
      · rw [if_pos again]
        simp only [again.1, cancelCall, Call.beginCancel?, again.2, if_false]
        exact delivers_refl valid
      · have pending : choice.getD dealer.options.defaultCancelMode = .kill →
            call.state = .pending := by simpa using again
        rw [if_neg again, cancelCall_eq found opened _ pending]
        have admits : call.Admits (.cancellation _) := ⟨opened, pending⟩
        exact delivers_turn valid found admits trivial

theorem delivers_yield (valid : dealer.ValidIds) (now : Time) (callee invocation : Nat)
    (options : Dict) (payload : Payload) :
    dealer.Delivers (dealer.yieldAttempts now callee invocation options payload)
      (if options.flag Dict.Key.progress then dealer.yieldProgress callee invocation payload
        else dealer.yieldResult now callee invocation payload) := by
  unfold yieldAttempts
  rcases target?_of_linked valid.toLinked callee invocation with
    nobody | ⟨number, call, index, target, rfl, rfl, found, tracks, awaited⟩
  · simp only [nobody, yieldProgress, yieldResult, ite_self]
    exact delivers_refl valid
  · simp only [awaited]
    cases options.flag Dict.Key.progress with
    | false =>
      have admits : call.Admits (.result index payload (now - call.started)) :=
        ⟨target, tracks.located, tracks.left⟩
      have turned := delivers_turn valid found admits trivial
      rwa [← yieldResult_eq tracks.tracked found tracks.located tracks.left] at turned
    | true =>
      simp only [awaited, if_true, yieldProgress, tracks.left, Bool.not_false, Bool.and_true]
      cases target.progressive with
      | false => exact delivers_refl valid
      | true =>
        cases done : call.isCompleted with
        | true =>
          simp only [sendProgress, done]
          exact delivers_refl valid
        | false =>
          have admits : call.Admits (.progress payload) := done
          have turned := delivers_turn valid found admits trivial
          rwa [← sendProgress_eq found done] at turned

theorem delivers_fail (valid : dealer.ValidIds) {callee invocation : Nat} {message : Message}
    {details : Dict} {error : String} {payload : Payload} (asked : message.IsValid)
    (reads : Rpc.ofMessage message = .ok (.error .invocation invocation details error payload)) :
    dealer.Delivers (dealer.failAttempts callee invocation details error payload)
      (dealer.fail callee invocation details error payload) := by
  unfold failAttempts
  rcases target?_of_linked valid.toLinked callee invocation with
    nobody | ⟨number, call, index, target, rfl, rfl, found, tracks, awaited⟩
  · simp only [nobody, fail]
    exact delivers_refl valid
  · have named : Uri.isValid error = true := Rpc.isValid_of_error asked reads
    have admits : call.Admits (.failure index details error payload) :=
      ⟨target, tracks.located, tracks.left⟩
    have turned := delivers_turn valid found admits named
    rw [← fail_eq tracks.tracked found tracks.located tracks.left] at turned
    simp only [awaited]
    exact turned

theorem delivers_handle (valid : dealer.ValidIds)
    (draws : ∀ session count, isValidId (peers.requestId session count) = true) {message : Message}
    (asked : message.IsValid) (now : Time) (draw session : Nat) :
    dealer.Delivers (dealer.attempts peers (.handle now draw session message))
      (dealer.step peers (.handle now draw session message)) := by
  have id {rpc : Rpc} (reads : Rpc.ofMessage message = .ok rpc)
      (isRequest : rpc.kind.isRequest = true) : isValidId rpc.request = true :=
    Rpc.isValidId_of_request asked reads (Rpc.kind_of_ofMessage reads ▸ isRequest)
  simp only [attempts, step, handle]
  cases reads : Rpc.ofMessage message with
  | error error => exact delivers_refl valid
  | ok rpc =>
    cases rpc with
    | register request options uri => exact delivers_register valid (id reads rfl) now session _ _
    | unregister request registration => exact delivers_unregister valid (id reads rfl) session _
    | call request options uri payload => exact delivers_call valid draws asked reads
    | cancel request options => exact delivers_cancel valid asked reads
    | yield invocation options payload =>
      have yielded := delivers_yield valid now session invocation options payload
      cases flag : options.flag Dict.Key.progress <;>
        simpa only [flag, if_true, Bool.false_eq_true, if_false] using yielded
    | error type invocation details error payload =>
      cases type with
      | invocation => exact delivers_fail valid asked reads
      | _ => exact delivers_refl valid
    | _ => exact delivers_refl valid

theorem delivers_expiry (valid : dealer.ValidIds) (peers : Peers) (numbers : List Nat) :
    dealer.Delivers (expiryAttempts peers dealer numbers) (dealer.expireAll peers numbers).2 := by
  unfold expireAll
  generalize 0 = count
  induction numbers generalizing dealer count with
  | nil => exact delivers_refl valid
  | cons number numbers ih =>
    rw [List.foldl_cons, expiryAttempts]
    cases found : dealer.calls[number]? with
    | none =>
      have kept : dealer.expire? peers number = none := by simp [expire?, found]
      simp only [kept]
      exact ih valid count
    | some call =>
      rcases expire?_cases peers found with kept | ⟨opened, -, expired⟩
      · simp only [kept]
        exact ih valid count
      · have admits : call.Admits .timeout := opened
        have turned := delivers_turn valid found admits trivial
        simp only [expired]
        exact turned.trans (ih turned.ids (count + 1))

theorem delivers_course {allowed : Dealer → Nat → Call → Call.Event → Prop}
    {sent : List (Nat × Rpc)} (course : Course allowed dealer sent later) (valid : dealer.ValidIds)
    (admits : ∀ {dealer : Dealer} {number : Nat} {call : Call} {event : Call.Event},
      allowed dealer number call event → call.Admits event ∧ event.IsNamed) :
    dealer.Delivers sent later := by
  induction course with
  | rest dealer => exact delivers_refl valid
  | turn found allows course ih =>
    obtain ⟨admitted, named⟩ := admits allows
    have turned := delivers_turn valid found admitted named
    exact turned.trans (ih turned.ids)

theorem delivers_retire (valid : dealer.ValidIds) (session : Nat) :
    dealer.Delivers []
      { dealer with cancelable := dealer.cancelable.filter fun key _ => key.1 ≠ session } where
  ids :=
    { toLinked := linked_retire valid.toLinked session
      numbered := valid.numbered
      calls := valid.calls }
  outbound := by simp
  sent := by simp

theorem delivers_closeSession (valid : dealer.ValidIds) (session : Nat) :
    dealer.Delivers (dealer.attempts peers (.closeSession session))
      (dealer.closeSession session) := by
  let order := Order.listed dealer session
  have left : dealer.Delivers [] order.left :=
    delivers_publish valid (Statistics.extends_refl dealer.statistics)
      (Directory.numbered_unregisterAll valid.numbered order.owned) _
  have deserted := delivers_course (order.desertion valid.toLinked) left.ids
    (fun ⟨index, target, tracks, _, same⟩ =>
      same ▸ ⟨⟨target, tracks.located, tracks.left⟩, trivial⟩)
  have severed : order.deserted.Delivers [] order.severed := delivers_retire deserted.ids session
  have closed := delivers_course (order.abandonment (.refl _)) severed.ids
    (fun ⟨opened, _, same⟩ => same ▸ ⟨opened, trivial⟩)
  have all := left.trans (deserted.trans (severed.trans closed))
  rw [closeSession_eq]
  exact all

theorem delivers_step (valid : dealer.ValidIds)
    (draws : ∀ session count, isValidId (peers.requestId session count) = true)
    (asked : operation.IsValid) :
    dealer.Delivers (dealer.attempts peers operation) (dealer.step peers operation) := by
  cases operation with
  | handle now draw session message => exact delivers_handle valid draws asked now draw session
  | checkTimeout now session => exact delivers_expiry valid peers _
  | closeSession session => exact delivers_closeSession valid session

def workAttempts (peers : Peers) : Dealer → List Operation → List (Nat × Rpc)
  | _, [] => []
  | dealer, operation :: work =>
    dealer.attempts peers operation ++ workAttempts peers (dealer.step peers operation) work

theorem delivers_work (valid : dealer.ValidIds)
    (draws : ∀ session count, isValidId (peers.requestId session count) = true)
    (work : List Operation) (asked : ∀ operation ∈ work, operation.IsValid) :
    dealer.Delivers (workAttempts peers dealer work) (work.foldl (step peers) dealer) := by
  induction work generalizing dealer with
  | nil => exact delivers_refl valid
  | cons operation work ih =>
    have first := delivers_step valid draws (asked operation (by simp))
    exact first.trans (ih first.ids fun other member => asked other (by simp [member]))

theorem validIds_run
    (draws : ∀ session count, isValidId (peers.requestId session count) = true)
    (options : Options) (operations : List Operation)
    (asked : ∀ operation ∈ operations, operation.IsValid) :
    (run peers options operations).ValidIds :=
  (delivers_work (validIds_initial options) draws operations asked).ids

end Dealer

end CallRouter
