import CallRouter.Proofs.Call.Notices
import CallRouter.Proofs.Dealer.Directory
import CallRouter.Proofs.Dealer.Resting
import CallRouter.Proofs.Dealer.Teardown

namespace CallRouter

def Effect.Concerns (session : Nat) : Effect → Prop
  | .send receiver _ _ => receiver = session
  | .publish event => event.session = session

namespace Call

variable {call : Call} {event : Event} {session : Nat}

theorem target_of_turn {after : Target} (member : after ∈ (call.turn event).call.targets) :
    ∃ target ∈ call.targets, target.callee = after.callee ∧
      (after.state = .active → target.state = .active) := by
  obtain ⟨index, located⟩ := List.mem_iff_getElem?.mp member
  obtain ⟨target, there, same, less⟩ := advances_turn call event index after located
  have callee := congrArg Target.callee same
  exact ⟨target, List.mem_of_getElem? there, callee, Target.State.active_of_rank less⟩

structure Apart (session : Nat) (call : Call) : Prop where
  caller : call.caller ≠ session
  callees : ∀ target ∈ call.targets, target.state = .active → target.callee ≠ session

theorem Apart.turn (apart : call.Apart session) (event : Event) :
    (call.turn event).call.Apart session where
  caller := by
    rw [caller_turn]
    exact apart.caller
  callees := by
    intro after member active
    obtain ⟨target, before, callee, same⟩ := target_of_turn member
    exact callee ▸ apart.callees target before (same active)

end Call

namespace Dealer

open Relation Registration.Directory

variable {peers : Peers} {operation : Operation} {dealer middle later : Dealer} {call : Call}
  {session known : Nat}

/--
A session is gone: it owns nothing, open calls are apart from it, and it is no target of any call
dispatched since a number of calls was known.
-/
structure Hushed (session known : Nat) (dealer : Dealer) : Prop extends Linked dealer where
  owned : dealer.directory.ownedBy session = []
  apart : ∀ {number : Nat} {call : Call}, dealer.calls[number]? = some call →
    call.isCompleted = false → call.Apart session
  unselected : ∀ {number : Nat} {call : Call}, dealer.calls[number]? = some call →
    known ≤ number → ∀ target ∈ call.targets, target.callee ≠ session

structure Hushes (session known : Nat) (dealer later : Dealer) : Prop where
  hushed : Hushed session known later
  effects : ∃ new, later.effects = dealer.effects ++ new ∧
    ∀ effect ∈ new, ¬ effect.Concerns session

theorem hushes_refl (hushed : Hushed session known dealer) : Hushes session known dealer dealer :=
  ⟨hushed, [], by simp, by simp⟩

theorem Hushes.trans (first : Hushes session known dealer middle)
    (second : Hushes session known middle later) : Hushes session known dealer later := by
  obtain ⟨new, grown, silent⟩ := first.effects
  obtain ⟨more, further, quiet⟩ := second.effects
  refine ⟨second.hushed, new ++ more, ?_, ?_⟩
  · rw [further, grown, List.append_assoc]
  · intro effect member
    rcases List.mem_append.mp member with before | after
    · exact silent effect before
    · exact quiet effect after

theorem hushes_aside (hushed : Hushed session known dealer) (aside : dealer.Aside later)
    (owned : later.directory.ownedBy session = [])
    (effects : ∃ new, later.effects = dealer.effects ++ new ∧
      ∀ effect ∈ new, ¬ effect.Concerns session) : Hushes session known dealer later where
  hushed :=
    { toLinked := linked_aside hushed.toLinked aside
      owned
      apart := fun found => hushed.apart (aside.calls ▸ found)
      unselected := fun found => hushed.unselected (aside.calls ▸ found) }
  effects := effects

theorem hushes_send (hushed : Hushed session known dealer) {receiver : Nat}
    (foreign : receiver ≠ session) {rpc : Rpc} (reply : rpc.kind.isReply = true) :
    Hushes session known dealer (dealer.send receiver rpc none) := by
  refine hushes_aside hushed (aside_send dealer receiver reply) ?_ ⟨_, by rw [send_eq], ?_⟩
  · rw [directory_send]
    exact hushed.owned
  · intro effect member
    obtain ⟨message, rfl⟩ := send_of_outgoing member
    exact foreign

theorem hushes_publish (hushed : Hushed session known dealer)
    {directory : Registration.Directory} {statistics : Statistics}
    (more : dealer.statistics.Extends statistics) {events : List Registration.Event}
    (owned : directory.ownedBy session = [])
    (foreign : ∀ event ∈ events, event.session ≠ session) :
    Hushes session known dealer { dealer with
      directory, statistics, effects := dealer.effects ++ events.map .publish } := by
  refine hushes_aside hushed (aside_publish dealer directory more events) owned ⟨_, rfl, ?_⟩
  intro effect member
  obtain ⟨event, among, rfl⟩ := List.mem_map.mp member
  exact foreign event among

section Turn

variable {number : Nat} {event : Call.Event}

theorem hushed_turn (hushed : Hushed session known dealer)
    (found : dealer.calls[number]? = some call) (admits : call.Admits event) :
    Hushed session known (dealer.turn number call event) where
  toLinked := linked_turn hushed.toLinked found event
  owned := hushed.owned
  apart := by
    intro other holder held opened
    rw [getElem?_turn found] at held
    split at held
    · obtain rfl := Option.some.inj held
      exact (hushed.apart found (Call.opened_of_turn admits opened)).turn event
    · exact hushed.apart held opened
  unselected := by
    intro other holder held new
    rw [getElem?_turn found] at held
    split at held
    · rename_i here
      subst here
      obtain rfl := Option.some.inj held
      intro after member
      obtain ⟨target, before, callee, -⟩ := Call.target_of_turn member
      exact callee ▸ hushed.unselected found new target before
    · exact hushed.unselected held new

theorem hushes_turn (hushed : Hushed session known dealer)
    (found : dealer.calls[number]? = some call) (admits : call.Admits event) :
    Hushes session known dealer (dealer.turn number call event) := by
  refine ⟨hushed_turn hushed found admits, _, rfl, ?_⟩
  intro effect member
  obtain ⟨receiver, rpc, message, sent, rfl⟩ := send_of_mailing member
  obtain ⟨opened, heard⟩ := Call.receiver_of_turn admits sent
  have apart := hushed.apart found opened
  rcases heard with rfl | ⟨target, among, active, rfl⟩
  · exact apart.caller
  · exact apart.callees target among active

theorem hushes_turns (hushed : Hushed session known dealer)
    (turns : ReflTransGen (Turns peers operation) dealer later) :
    Hushes session known dealer later := by
  induction turns with
  | refl => exact hushes_refl hushed
  | tail _ turn ih =>
    obtain ⟨found, cause⟩ := turn
    exact ih.trans (hushes_turn ih.hushed found cause.admits)

end Turn

theorem Dispatches.callee_ne (dispatches : Dispatches peers dealer operation call later)
    (owned : dealer.directory.ownedBy session = []) :
    ∀ target ∈ call.targets, target.callee ≠ session := by
  intro target member
  obtain ⟨id, registration, live, -, callee⟩ := dispatches.serves member
  rw [callee]
  exact ownedBy_eq_nil.mp owned id registration live

theorem Dispatches.ownedBy (dispatches : Dispatches peers dealer operation call later) :
    later.directory.ownedBy session = dealer.directory.ownedBy session := by
  rcases dispatches.directory with same | ⟨entry, draw, same⟩
  · rw [same]
  · rw [same]
    rfl

theorem hushes_dispatch (hushed : Hushed session known dealer)
    (dispatches : Dispatches peers dealer operation call later) (foreign : call.caller ≠ session) :
    Hushes session known dealer later := by
  have callees := dispatches.callee_ne hushed.owned
  obtain ⟨payload, grown⟩ := dispatches.effects
  refine ⟨?_, _, grown, ?_⟩
  · exact
      { toLinked := dispatches.linked hushed.toLinked
        owned := dispatches.ownedBy.trans hushed.owned
        apart := by
          intro number other found opened
          rcases dispatches.cases found with before | ⟨rfl, rfl⟩
          · exact hushed.apart before opened
          · exact ⟨foreign, fun target member _ => callees target member⟩
        unselected := by
          intro number other found new
          rcases dispatches.cases found with before | ⟨rfl, rfl⟩
          · exact hushed.unselected before new
          · exact callees }
  · intro effect member
    obtain ⟨receiver, rpc, message, sent, rfl⟩ := send_of_mailing member
    obtain ⟨target, among, same⟩ := List.mem_map.mp sent
    obtain ⟨rfl, -⟩ := Prod.mk.inj same
    exact callees target among

theorem hushes_register (hushed : Hushed session known dealer) {registrant : Nat}
    (foreign : registrant ≠ session) (now : Time) (request : Nat) (options : Dict) (uri : String) :
    Hushes session known dealer (dealer.register now registrant request options uri) := by
  unfold register
  cases done : dealer.register? now registrant options uri with
  | error refusal => exact hushes_send hushed foreign rfl
  | ok answer =>
    obtain ⟨registration, later⟩ := answer
    obtain ⟨_, _, events, directory, _, _, _, _, made, rfl⟩ := register?_cases done
    have owned : directory.ownedBy session = [] := by
      apply ownedBy_stays_nil hushed.owned
      intro id live found
      exact (registration_of_register made found).imp_right fun own => own.trans_ne foreign
    have silent : ∀ event ∈ events, event.session ≠ session := by
      intro event member
      rw [session_of_register made event member]
      exact foreign
    have more := Statistics.extends_attach dealer.statistics [uri]
    have published := hushes_publish hushed more owned silent
    exact published.trans (hushes_send published.hushed foreign rfl)

theorem hushes_unregister (hushed : Hushed session known dealer) {owner : Nat}
    (foreign : owner ≠ session) (request id : Nat) :
    Hushes session known dealer (dealer.unregister owner request id) := by
  unfold unregister
  cases done : dealer.unregister? owner id with
  | error refusal => exact hushes_send hushed foreign rfl
  | ok later =>
    obtain ⟨_, registration, events, directory, gone, rfl⟩ := unregister?_cases done
    have owned : directory.ownedBy session = [] := by
      apply ownedBy_stays_nil hushed.owned
      intro other live found
      exact .inl ((registration_unregister gone).mp found).2
    have silent : ∀ event ∈ events, event.session ≠ session := by
      intro event member
      rw [session_of_unregister gone event member]
      exact ownedBy_eq_nil.mp hushed.owned id registration (unregister_eq_ok gone).1
    have published := hushes_publish hushed (Statistics.extends_refl _) owned silent
    exact published.trans (hushes_send published.hushed foreign rfl)

theorem hushes_retire (hushed : Hushed session known dealer) (other : Nat) :
    Hushes session known dealer
      { dealer with cancelable := dealer.cancelable.filter fun key _ => key.1 ≠ other } where
  hushed :=
    { toLinked := linked_retire hushed.toLinked other
      owned := hushed.owned
      apart := hushed.apart
      unselected := hushed.unselected }
  effects := ⟨[], by simp, by simp⟩

theorem hushes_closes (hushed : Hushed session known dealer) {other : Nat}
    (closes : dealer.Closes other later) : Hushes session known dealer later := by
  cases closes with
  | @close order made all =>
    have left : Hushes session known dealer order.left := by
      refine hushes_publish hushed (Statistics.extends_refl _) ?_ ?_
      · apply ownedBy_stays_nil hushed.owned
        intro id live found
        exact .inl ((registration_of_closed order.ownedAll).mp found).1
      · intro event member
        obtain ⟨id, registration, live, same⟩ :=
          session_of_unregisterAll order.owned event member
        exact same ▸ ownedBy_eq_nil.mp hushed.owned id registration live
    have losses : ReflTransGen (Turns obliging (.closeSession other)) order.left order.deserted :=
      turns_losses (order.losses hushed.toLinked)
    have deserted := hushes_turns left.hushed losses
    have severed : Hushes session known order.deserted order.severed :=
      hushes_retire deserted.hushed other
    have abandonments : ReflTransGen (Turns obliging (.closeSession other)) order.severed _ :=
      turns_abandonments (order.abandonments all)
    exact left.trans (deserted.trans (severed.trans (hushes_turns severed.hushed abandonments)))

theorem hushes_call (hushed : Hushed session known dealer) {caller : Nat}
    (foreign : caller ≠ session) {now : Time} {draw request : Nat} {options : Dict} {uri : String}
    {payload : Payload} {message : Message}
    (reads : Rpc.ofMessage message = .ok (.call request options uri payload)) :
    Hushes session known dealer
      (dealer.call peers now draw caller request options uri payload) := by
  rcases call_cases dealer peers now draw caller request options uri payload reads with
    ⟨statistics, rpc, reply, more, answered⟩ | ⟨call, dispatches⟩
  · rw [answered]
    have counted : Hushes session known dealer { dealer with statistics } :=
      hushes_aside hushed (aside_count more) hushed.owned ⟨[], by simp, by simp⟩
    exact counted.trans (hushes_send counted.hushed foreign reply)
  · obtain ⟨_, _, _, _, _, same, _⟩ := dispatches.request
    obtain ⟨-, -, rfl, -⟩ := Operation.handle.inj same
    exact hushes_dispatch hushed dispatches foreign

theorem hushes_handle (hushed : Hushed session known dealer) {sender : Nat}
    (foreign : sender ≠ session) (now : Time) (draw : Nat) (message : Message) :
    Hushes session known dealer (dealer.step peers (.handle now draw sender message)) := by
  have handled := handled_step hushed.toLinked peers now draw sender message
  generalize dealer.step peers (.handle now draw sender message) = later at handled ⊢
  cases handled with
  | register reads => exact hushes_register hushed foreign now _ _ _
  | unregister reads => exact hushes_unregister hushed foreign _ _
  | call reads => exact hushes_call hushed foreign reads
  | refuse reads => exact hushes_send hushed foreign rfl
  | turns turns => exact hushes_turns hushed turns

def Operation.IsFrom (session : Nat) : Operation → Prop
  | .handle _ _ sender _ => sender = session
  | _ => False

theorem hushes_step (hushed : Hushed session known dealer) (other : ¬ operation.IsFrom session) :
    Hushes session known dealer (dealer.step peers operation) := by
  cases operation with
  | handle now draw sender message => exact hushes_handle hushed other now draw message
  | checkTimeout now session => exact hushes_turns hushed (checkTimeout_turns dealer now session)
  | closeSession session => exact hushes_closes hushed (closes_closeSession dealer session)

theorem hushes_run (hushed : Hushed session known dealer) (operations : List Operation)
    (others : ∀ operation ∈ operations, ¬ operation.IsFrom session) :
    Hushes session known dealer (operations.foldl (step peers) dealer) := by
  induction operations using List.reverseRecOn with
  | nil => exact hushes_refl hushed
  | append_singleton operations operation ih =>
    have before := ih fun other member => others other (by simp [member])
    rw [List.foldl_append, List.foldl_cons, List.foldl_nil]
    exact before.trans (hushes_step before.hushed (others operation (by simp)))

theorem Gone.hushed (gone : dealer.Gone session) (awaiting : dealer.Awaiting) :
    Hushed session dealer.calls.length dealer where
  toLinked := awaiting.toLinked
  owned := gone.owned
  apart := by
    intro number call found opened
    refine ⟨fun own => ?_, fun target member active served => ?_⟩
    · have done := gone.made call (List.mem_of_getElem? found) own
      simp [done] at opened
    · obtain ⟨index, located⟩ := List.mem_iff_getElem?.mp member
      have left : target.state.isFinished = false := by simp [active, Call.Target.State.isFinished]
      have awaited := awaiting.awaited found opened located left
      simp [Call.Target.key, served, gone.tracked] at awaited
  unselected := by
    intro number call found new
    have bound := (List.getElem?_eq_some_iff.mp found).1
    omega

/--
Once a session is closed, in whatever order its belongings are taken up, nothing is sent to it and
no event is caused by it until it sends a message again itself, and no call is dispatched to it.
-/
theorem closed_session_stays_silent (peers : Peers) (options : Options)
    (operations : List Operation) (fresh : RunsFresh peers options operations) (session : Nat) :
    let dealer := run peers options operations
    dealer.Closes session (dealer.closeSession session) ∧
    ∀ closed, dealer.Closes session closed → ∀ more : List Operation,
      (∀ operation ∈ more, ¬ operation.IsFrom session) →
        let later := more.foldl (step peers) closed
        (∃ new, later.effects = closed.effects ++ new ∧
          ∀ effect ∈ new, ¬ effect.Concerns session) ∧
        (∀ number call, later.calls[number]? = some call → closed.calls.length ≤ number →
          ∀ target ∈ call.targets, target.callee ≠ session) ∧
        later.directory.ownedBy session = [] := by
  intro dealer
  refine ⟨closes_closeSession dealer session, fun closed closes more others => ?_⟩
  have awaiting := awaiting_run peers options operations fresh
  have moves : Moves peers (.closeSession session) dealer closed := closes.moves awaiting.toLinked
  have hushed := (awaiting.gone closes).hushed (awaiting_moves awaiting moves)
  have hushes : Hushes session _ closed (more.foldl (step peers) closed) :=
    hushes_run hushed more others
  exact ⟨hushes.effects, fun _ _ => hushes.hushed.unselected, hushes.hushed.owned⟩

theorem closed_session_stays_silent_over_leftovers :
    let operations : List Operation :=
      [.handle 0 0 1 ⟨.register, [.ofNat 1, .dict [], .text "sum"]⟩,
        .handle 0 0 2 ⟨.register, [.ofNat 1, .dict [], .text "mul"]⟩,
        .handle 0 0 3 ⟨.call, [.ofNat 1, .dict [], .text "sum"]⟩,
        .handle 0 0 1 ⟨.call, [.ofNat 2, .dict [], .text "mul"]⟩,
        .handle 0 0 1 ⟨.cancel, [.ofNat 2, .dict [(Dict.Key.mode, .text "skip")]]⟩]
    let more : List Operation :=
      [.handle 0 0 2 ⟨.yield, [.ofNat 1, .dict []]⟩,
        .handle 0 0 3 ⟨.call, [.ofNat 2, .dict [], .text "sum"]⟩,
        .handle 0 0 3 ⟨.call, [.ofNat 3, .dict [], .text "mul"]⟩,
        .checkTimeout 9 2, .closeSession 2]
    let closed := (run obliging {} operations).closeSession 1
    let later := more.foldl (step obliging) closed
    RunsFresh obliging {} operations ∧ (∀ operation ∈ more, ¬ operation.IsFrom 1) ∧
      closed.tracked.find? (2, 1) = some (1, 0) ∧ (closed.calls[1]?.map Call.caller) = some 1 ∧
      later.effects.length = closed.effects.length + 5 ∧
      ∃ new, later.effects = closed.effects ++ new ∧ ∀ effect ∈ new, ¬ effect.Concerns 1 := by
  intro operations more closed later
  have fresh : RunsFresh obliging {} operations := by decide +kernel
  have others : ∀ operation ∈ more, ¬ operation.IsFrom 1 := by simp [more, Operation.IsFrom]
  obtain ⟨closes, silent⟩ := closed_session_stays_silent obliging {} operations fresh 1
  exact ⟨fresh, others, by decide +kernel, by decide +kernel, by decide +kernel,
    (silent closed closes more others).1⟩

end Dealer

end CallRouter
