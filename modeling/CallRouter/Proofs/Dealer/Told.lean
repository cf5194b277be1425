import CallRouter.Proofs.Call.Notices
import CallRouter.Proofs.Dealer.Directory
import CallRouter.Proofs.Dealer.Draws
import CallRouter.Proofs.Dealer.Resting
import CallRouter.Proofs.Registration.Numbered

namespace CallRouter

def Effect.notice? (key : Nat × Nat) : Effect → Option Message
  | .send session message _ =>
    if session = key.1 && message.nat? 0 = some key.2 && !message.kind.isReply then some message
    else none
  | .publish _ => none

namespace Dealer

variable {peers : Peers} {operation : Operation} {dealer later : Dealer} {call : Call}
  {number index : Nat}

def told (dealer : Dealer) (key : Nat × Nat) : List Message :=
  dealer.effects.filterMap (Effect.notice? key)

structure Addresses (rpc : Call.Target → Rpc) : Prop where
  names : ∀ target, (rpc target).message.nat? 0 = some target.invocation
  notice : ∀ target, (rpc target).kind.isReply = false

theorem notices_mailing {rpc : Call.Target → Rpc} (addresses : Addresses rpc) (number : Nat)
    (targets : List Call.Target) (key : Nat × Nat) :
    (mailing number (targets.map fun target => (target.callee, rpc target))).filterMap
        (Effect.notice? key) =
      (targets.filter fun target => target.key = key && (rpc target).isSendable).map
        fun target => (rpc target).message := by
  induction targets with
  | nil => rfl
  | cons target targets ih =>
    have names := addresses.names target
    have notice : (rpc target).message.kind.isReply = false := addresses.notice target
    rw [List.map_cons, mailing_cons, List.filterMap_append, ih, outgoing_eq]
    cases sendable : (rpc target).isSendable with
    | false => simp [sendable]
    | true =>
      by_cases here : target.key = key
      · simp [← here, sendable, Effect.notice?, names, notice, Call.Target.key]
      · have other : ¬ (target.callee = key.1 ∧ target.invocation = key.2) :=
          fun same => here (Prod.ext same.1 same.2)
        simp [here, Effect.notice?, names, notice, other]

theorem told_mailing (number : Nat) (sent : List (Nat × Rpc)) (key : Nat × Nat) :
    (mailing number sent).filterMap (Effect.notice? key) =
      (mailing number (sent.filter fun message => !message.2.kind.isReply)).filterMap
        (Effect.notice? key) := by
  induction sent with
  | nil => rfl
  | cons message sent ih =>
    obtain ⟨session, rpc⟩ := message
    rw [mailing_cons, List.filterMap_append, ih]
    cases reply : rpc.kind.isReply with
    | false => simp [reply]
    | true =>
      have silent : (outgoing (some number) session rpc).filterMap (Effect.notice? key) = [] := by
        rw [outgoing_eq]
        split
        · simp [Effect.notice?, Rpc.message, reply]
        · rfl
      simp [reply, silent]

theorem told_aside (aside : dealer.Aside later) (key : Nat × Nat) :
    later.told key = dealer.told key := by
  obtain ⟨new, grown, silent⟩ := aside.effects
  have nothing : new.filterMap (Effect.notice? key) = [] := by
    rw [List.filterMap_eq_nil_iff]
    intro effect member
    cases effect with
    | publish event => rfl
    | send session message about => simp [Effect.notice?, (silent session message about member).2]
  rw [told, grown, List.filterMap_append, nothing, List.append_nil]
  rfl

theorem filter_key {targets : List Call.Target} {target : Call.Target}
    (distinct : (targets.map Call.Target.key).Nodup) (member : target ∈ targets) :
    (targets.filter fun other => other.key = target.key) = [target] := by
  induction targets with
  | nil => cases member
  | cons first targets ih =>
    rw [List.map_cons, List.nodup_cons] at distinct
    rcases List.mem_cons.mp member with rfl | rest
    · have others : (targets.filter fun other => other.key = target.key) = [] := by
        rw [List.filter_eq_nil_iff]
        intro other among
        have apart : other.key ≠ target.key :=
          fun same => distinct.1 (same ▸ List.mem_map_of_mem among)
        simpa using apart
      simp [others]
    · have apart : first.key ≠ target.key :=
        fun same => distinct.1 (same ▸ List.mem_map_of_mem rest)
      simp [apart, ih distinct.2 rest]

theorem addresses_interrupt (mode : CancelMode) (reason : String) :
    Addresses fun target => (target.interrupt mode reason).2 := ⟨fun _ => rfl, fun _ => rfl⟩

theorem told_turn_eq (dealer : Dealer) (number : Nat) (call : Call) (event : Call.Event)
    (key : Nat × Nat) :
    (dealer.turn number call event).told key = dealer.told key ++
      (mailing number (call.turn event).notices).filterMap (Effect.notice? key) := by
  simp only [told, turn, List.filterMap_append]
  rw [told_mailing]
  rfl

theorem told_turn {event : Call.Event} (dealer : Dealer) (number : Nat)
    (admits : call.Admits event) (distinct : (call.targets.map Call.Target.key).Nodup)
    (key : Nat × Nat) :
    (dealer.turn number call event).told key = dealer.told key ∨
      ∃ index target options, Call.Stops call event index target ∧ target.key = key ∧
        (dealer.turn number call event).told key =
          dealer.told key ++ [(Rpc.interrupt target.invocation options).message] := by
  rw [told_turn_eq]
  rcases Call.notices_cases admits with silent | ⟨targets, mode, reason, heard, among, stops⟩
  · left
    rw [silent, mailing_nil, List.filterMap_nil, List.append_nil]
  · have heeded := notices_mailing (addresses_interrupt mode reason) number targets key
    rw [heard, show Call.Target.interrupt mode reason = fun target =>
      (target.callee, (target.interrupt mode reason).2) from rfl, heeded]
    by_cases any : ∃ target ∈ targets, target.key = key ∧
        (target.interrupt mode reason).2.isSendable = true
    · obtain ⟨target, member, rfl, sendable⟩ := any
      obtain ⟨index, stop⟩ := stops target member
      have only := filter_key (distinct.sublist among) member
      have both : (targets.filter fun other => other.key = target.key &&
          (other.interrupt mode reason).2.isSendable) = [target] := by
        rw [← List.filter_filter, List.filter_comm, only]
        simp [sendable]
      refine .inr ⟨index, target, [(Dict.Key.mode, .text mode.name), (Dict.Key.reason, .text reason)],
        stop, rfl, ?_⟩
      rw [both]
      rfl
    · left
      have nobody : (targets.filter fun target => target.key = key &&
          (target.interrupt mode reason).2.isSendable) = [] := by
        rw [List.filter_eq_nil_iff]
        intro target member both
        exact any ⟨target, member, by simpa using both⟩
      rw [nobody, List.map_nil, List.append_nil]

theorem numbered_run (peers : Peers) (options : Options) (operations : List Operation) :
    (run peers options operations).directory.Numbered := by
  induction operations using List.reverseRecOn with
  | nil => exact Registration.Directory.numbered_empty
  | append_singleton operations operation ih =>
    rw [run_concat]
    rcases step_directory (linked_run peers options operations) peers operation with
      same | ⟨asked, _, same⟩
    · rw [same]
      exact ih
    · rw [same]
      exact Registration.Directory.numbered_apply ih asked

theorem Dispatches.registered (dispatches : Dispatches peers dealer operation call later)
    (numbered : dealer.directory.Numbered) {target : Call.Target}
    (member : target ∈ call.targets) : isValidId target.registration = true := by
  obtain ⟨id, registration, live, same, -⟩ := dispatches.serves member
  rw [same]
  exact numbered.valid id registration live

theorem told_dispatch (dispatches : Dispatches peers dealer operation call later) :
    ∃ (details : Call.Target → Dict) (payload : Payload), ∀ key,
      let invoke (target : Call.Target) : Rpc :=
        .invocation target.invocation target.registration (details target) payload
      later.told key = dealer.told key ++
        (call.targets.filter fun target => target.key = key && (invoke target).isSendable).map
          fun target => (invoke target).message := by
  obtain ⟨payload, grown⟩ := dispatches.effects
  have addresses : Addresses fun target => .invocation target.invocation target.registration
    (invocationDetails peers dealer.options call target) payload := ⟨fun _ => rfl, fun _ => rfl⟩
  refine ⟨invocationDetails peers dealer.options call, payload, fun key => ?_⟩
  rw [told, grown, List.filterMap_append, invocations, notices_mailing addresses]
  rfl

theorem told_dispatch_other (dispatches : Dispatches peers dealer operation call later)
    {key : Nat × Nat} (other : key ∉ call.targets.map Call.Target.key) :
    later.told key = dealer.told key := by
  obtain ⟨details, payload, grown⟩ := told_dispatch dispatches
  have nobody : (call.targets.filter fun target => target.key = key && (Rpc.invocation
      target.invocation target.registration (details target) payload).isSendable) = [] := by
    rw [List.filter_eq_nil_iff]
    intro target member both
    simp only [Bool.and_eq_true, decide_eq_true_eq] at both
    exact other (both.1 ▸ List.mem_map_of_mem member)
  rw [grown, nobody, List.map_nil, List.append_nil]

theorem told_dispatch_self (dispatches : Dispatches peers dealer operation call later)
    (numbered : dealer.directory.Numbered) (distinct : (call.targets.map Call.Target.key).Nodup)
    {target : Call.Target} (member : target ∈ call.targets)
    (valid : isValidId target.invocation = true) :
    ∃ details payload, later.told target.key = dealer.told target.key ++
      [(Rpc.invocation target.invocation target.registration details payload).message] := by
  obtain ⟨details, payload, grown⟩ := told_dispatch dispatches
  have sendable := Rpc.isSendable_invocation valid (dispatches.registered numbered member)
    (details target) payload
  have only : (call.targets.filter fun other => other.key = target.key && (Rpc.invocation
      other.invocation other.registration (details other) payload).isSendable) = [target] := by
    rw [← List.filter_filter, List.filter_comm, filter_key distinct member]
    simp [sendable]
  refine ⟨details target, payload, ?_⟩
  rw [grown, only]
  rfl

end Dealer

end CallRouter
