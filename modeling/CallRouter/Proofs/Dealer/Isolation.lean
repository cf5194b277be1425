import CallRouter.Proofs.Call.Notices
import CallRouter.Proofs.Dealer.Awaiting
import CallRouter.Proofs.Dealer.Directory
import CallRouter.Proofs.Registration.Ownership

namespace CallRouter

namespace Call

variable {call : Call} {event : Event}

theorem getElem?_answered {j : Nat} (apart : event.index? ≠ some j) :
    (call.answered event).targets[j]? = call.targets[j]? := by
  cases event with
  | result index payload elapsed =>
    have other : index ≠ j := fun same => apart (congrArg some same)
    rw [answered, getElem?_settled, if_neg other]
  | failure index details error payload =>
    have other : index ≠ j := fun same => apart (congrArg some same)
    rw [answered, getElem?_settled, if_neg other]
  | loss index =>
    have other : index ≠ j := fun same => apart (congrArg some same)
    rw [answered, getElem?_settled, if_neg other]
  | _ => rfl

theorem isFinished_turn (admits : call.Admits event) {j : Nat} {target : Target}
    (found : call.targets[j]? = some target) (apart : event.index? ≠ some j) :
    ∃ after, (call.turn event).call.targets[j]? = some after ∧ after.key = target.key ∧
      after.state.isFinished = target.state.isFinished := by
  rw [← getElem?_answered apart] at found
  cases stirs_turn admits with
  | rest silent same => exact ⟨target, same ▸ found, rfl, rfl⟩
  | stop mode reason opened heard stopped freed =>
    refine ⟨target.interrupted, ?_, target.key_interrupted, target.isFinished_interrupted⟩
    rw [stopped, getElem?_interrupted, found]
    rfl

def HasParty (call : Call) (session : Nat) : Prop :=
  session = call.caller ∨ ∃ target ∈ call.targets, target.callee = session

/--
What a message of a session is about: a CANCEL about the calls that the session made, an answer about
those that it serves, and a CALL about the one that it makes, which comes after all known ones.
-/
def IsSubject (call : Call) (session : Nat) (kind : Message.Kind) (known number : Nat) : Prop :=
  match kind with
  | .cancel => call.caller = session
  | .yield | .error => ∃ target ∈ call.targets, target.callee = session
  | .call => known ≤ number ∧ call.caller = session
  | _ => False

section Origin

variable {after : Call} (same : after.origin = call.origin)
include same

theorem caller_eq_of_origin : after.caller = call.caller := by
  have callers := congrArg Call.caller same
  simpa using callers

theorem callee_of_origin {session : Nat} :
    (∃ target ∈ after.targets, target.callee = session) ↔
      ∃ target ∈ call.targets, target.callee = session := by
  have callees (call : Call) : (∃ target ∈ call.targets, target.callee = session) ↔
      ∃ key ∈ call.targets.map Target.key, key.1 = session := by
    simp [Target.key]
  rw [callees, callees, keys_of_origin same]

theorem hasParty_of_origin {session : Nat} : after.HasParty session ↔ call.HasParty session := by
  rw [HasParty, HasParty, caller_eq_of_origin same, callee_of_origin same]

theorem isSubject_of_origin {session known number : Nat} {kind : Message.Kind} :
    after.IsSubject session kind known number ↔ call.IsSubject session kind known number := by
  cases kind <;>
    simp only [IsSubject, caller_eq_of_origin same, callee_of_origin same]

end Origin

end Call

namespace Dealer

open Relation Registration.Directory

variable {peers : Peers} {dealer middle later : Dealer} {session known : Nat}
  {kind : Message.Kind}

inductive Reaches (session : Nat) (kind : Message.Kind) (known : Nat) (later : Dealer) :
    Effect → Prop
  | answer (message : Message) : Reaches session kind known later (.send session message none)
  | event {event : Registration.Event} (own : event.session = session) :
      Reaches session kind known later (.publish event)
  | party {receiver number : Nat} {message : Message} {call : Call}
      (found : later.calls[number]? = some call)
      (subject : call.IsSubject session kind known number) (takesPart : call.HasParty receiver) :
      Reaches session kind known later (.send receiver message (some number))

structure Isolates (session : Nat) (kind : Message.Kind) (known : Nat) (dealer later : Dealer) :
    Prop where
  persists : dealer.Persists later
  same : ∀ {number : Nat}, (∀ call, later.calls[number]? = some call →
      ¬ call.IsSubject session kind known number) →
    later.calls[number]? = dealer.calls[number]? ∧
    (∀ key index, later.tracked.find? key = some (number, index) ↔
      dealer.tracked.find? key = some (number, index)) ∧
    ∀ key, key.1 ≠ session → (later.cancelable.find? key = some number ↔
      dealer.cancelable.find? key = some number)
  left : ∀ {number index : Nat} {call : Call} {target : Call.Target},
    dealer.calls[number]? = some call → call.targets[index]? = some target →
    target.callee ≠ session → ∃ after later',
      later.calls[number]? = some after ∧ after.targets[index]? = some later' ∧
      later'.key = target.key ∧ later'.state.isFinished = target.state.isFinished
  effects : ∃ new, later.effects = dealer.effects ++ new ∧
    ∀ effect ∈ new, Reaches session kind known later effect

theorem isolates_refl (dealer : Dealer) : Isolates session kind known dealer dealer where
  persists := persists_refl dealer
  same _ := ⟨rfl, fun _ _ => .rfl, fun _ _ => .rfl⟩
  left found located _ := ⟨_, _, found, located, rfl, rfl⟩
  effects := ⟨[], by simp, by simp⟩

theorem Reaches.mono (persists : dealer.Persists later) {effect : Effect}
    (reaches : Reaches session kind known dealer effect) :
    Reaches session kind known later effect := by
  cases reaches with
  | answer message => exact .answer message
  | event own => exact .event own
  | party found subject takesPart =>
    obtain ⟨after, located, same, -⟩ := persists found
    exact .party located ((Call.isSubject_of_origin same).mpr subject)
      ((Call.hasParty_of_origin same).mpr takesPart)

theorem Isolates.trans (first : Isolates session kind known dealer middle)
    (second : Isolates session kind known middle later) :
    Isolates session kind known dealer later where
  persists := persists_trans first.persists second.persists
  same := by
    intro number apart
    have before : ∀ call, middle.calls[number]? = some call →
        ¬ call.IsSubject session kind known number := by
      intro call found subject
      obtain ⟨after, located, same, -⟩ := second.persists found
      exact apart after located ((Call.isSubject_of_origin same).mpr subject)
    obtain ⟨calls, tracked, cancelable⟩ := first.same before
    obtain ⟨calls', tracked', cancelable'⟩ := second.same apart
    exact ⟨calls'.trans calls, fun key index => (tracked' key index).trans (tracked key index),
      fun key foreign => (cancelable' key foreign).trans (cancelable key foreign)⟩
  left := by
    intro number index call target found located foreign
    obtain ⟨between, target', found', located', key, state⟩ := first.left found located foreign
    have callee : target'.callee = target.callee := congrArg Prod.fst key
    obtain ⟨after, target'', there, at', key', state'⟩ :=
      second.left found' located' (callee ▸ foreign)
    exact ⟨after, target'', there, at', key'.trans key, state'.trans state⟩
  effects := by
    obtain ⟨new, grown, reached⟩ := first.effects
    obtain ⟨more, further, reached'⟩ := second.effects
    refine ⟨new ++ more, ?_, ?_⟩
    · rw [further, grown, List.append_assoc]
    · intro effect member
      rcases List.mem_append.mp member with before | after
      · exact (reached effect before).mono second.persists
      · exact reached' effect after

theorem isolates_aside (aside : dealer.Aside later)
    (effects : ∃ new, later.effects = dealer.effects ++ new ∧
      ∀ effect ∈ new, Reaches session kind known later effect) :
    Isolates session kind known dealer later where
  persists := fun found => ⟨_, aside.calls ▸ found, rfl, id, Call.advances_refl _⟩
  same := by
    intro number _
    rw [aside.calls, aside.tracked, aside.cancelable]
    exact ⟨rfl, fun _ _ => .rfl, fun _ _ => .rfl⟩
  left := by
    intro number index call target found located _
    rw [aside.calls]
    exact ⟨call, target, found, located, rfl, rfl⟩
  effects := effects

theorem isolates_send (dealer : Dealer) {rpc : Rpc} (reply : rpc.kind.isReply = true) :
    Isolates session kind known dealer (dealer.send session rpc none) := by
  refine isolates_aside (aside_send dealer session reply) ⟨_, by rw [send_eq], ?_⟩
  intro effect member
  obtain ⟨message, rfl⟩ := send_of_outgoing member
  exact .answer message

theorem isolates_publish (directory : Registration.Directory) {statistics : Statistics}
    (more : dealer.statistics.Extends statistics) {events : List Registration.Event}
    (own : ∀ event ∈ events, event.session = session) :
    Isolates session kind known dealer { dealer with
      directory, statistics, effects := dealer.effects ++ events.map .publish } := by
  refine isolates_aside (aside_publish dealer directory more events) ⟨_, rfl, ?_⟩
  intro effect member
  obtain ⟨event, among, rfl⟩ := List.mem_map.mp member
  exact .event (own event among)

section Turn

variable {now : Time} {draw number : Nat} {message : Message} {call : Call} {event : Call.Event}

theorem Cause.kind_cases
    (cause : Cause peers dealer number call (.handle now draw session message) event) :
    message.kind = .cancel ∨ message.kind = .yield ∨ message.kind = .error := by
  cases cause with
  | progress tracks reads | result tracks reads | failure tracks reads | cancellation reads =>
    rw [← Rpc.kind_of_ofMessage reads]
    simp [Rpc.kind]

theorem Cause.isSubject
    (cause : Cause peers dealer number call (.handle now draw session message) event) :
    call.IsSubject session message.kind known number := by
  cases cause with
  | progress tracks reads | result tracks reads | failure tracks reads =>
    rw [← Rpc.kind_of_ofMessage reads]
    exact ⟨_, List.mem_of_getElem? tracks.located, rfl⟩
  | cancellation reads =>
    rw [← Rpc.kind_of_ofMessage reads]
    rfl

theorem Cause.callee
    (cause : Cause peers dealer number call (.handle now draw session message) event) {index : Nat}
    {target : Call.Target} (about : event.index? = some index)
    (located : call.targets[index]? = some target) : target.callee = session := by
  cases cause with
  | result tracks reads flag | failure tracks reads =>
    obtain rfl := Option.some.inj about
    rw [tracks.located] at located
    rw [Option.some.inj located]
  | _ => cases about

theorem isolates_turn (awaiting : dealer.Awaiting) (found : dealer.calls[number]? = some call)
    (cause : Cause peers dealer number call (.handle now draw session message) event) :
    Isolates session message.kind known dealer (dealer.turn number call event) where
  persists := persists_move (.turn found cause)
  same := by
    intro other apart
    have elsewhere : other ≠ number := by
      rintro rfl
      have turned : (dealer.turn other call event).calls[other]? = some (call.turn event).call := by
        rw [getElem?_turn found, if_pos rfl]
      exact apart _ turned
        ((Call.isSubject_of_origin (Call.origin_turn call event)).mpr cause.isSubject)
    refine ⟨?_, fun key index => ?_, fun key _ => ?_⟩
    · rw [getElem?_turn found, if_neg elsewhere.symm]
    · refine find?_releasing.trans (and_iff_left_of_imp fun tracked member => ?_)
      obtain ⟨place, released, -⟩ := released_tracked awaiting found cause member
      rw [tracked] at released
      exact elsewhere (Prod.mk.inj (Option.some.inj released)).1
    · simp only [turn]
      split
      · exact find?_forgetting.trans (and_iff_left_of_imp fun _ _ => elsewhere)
      · exact .rfl
  left := by
    intro other index holder target held located foreign
    by_cases here : number = other
    · subst here
      obtain rfl := Option.some.inj (found.symm.trans held)
      have apart : event.index? ≠ some index := fun about =>
        foreign (cause.callee about located)
      obtain ⟨after, there, key, state⟩ := Call.isFinished_turn cause.admits located apart
      exact ⟨_, after, by rw [getElem?_turn found, if_pos rfl], there, key, state⟩
    · exact ⟨holder, target, by rw [getElem?_turn found, if_neg here, held], located, rfl, rfl⟩
  effects := by
    refine ⟨_, rfl, fun effect member => ?_⟩
    obtain ⟨receiver, rpc, sent, among, rfl⟩ := send_of_mailing member
    have origin := Call.origin_turn call event
    refine .party (by rw [getElem?_turn found, if_pos rfl])
      ((Call.isSubject_of_origin origin).mpr cause.isSubject)
      ((Call.hasParty_of_origin origin).mpr ?_)
    refine (Call.receiver_of_turn cause.admits among).2.imp_right ?_
    rintro ⟨target, inside, _, callee⟩
    exact ⟨target, inside, callee⟩

theorem isolates_turns (awaiting : dealer.Awaiting)
    (turns : ReflTransGen (Turns peers (.handle now draw session message)) dealer later) :
    Isolates session message.kind known dealer later := by
  induction turns with
  | refl => exact isolates_refl dealer
  | tail before turn ih =>
    obtain ⟨found, cause⟩ := turn
    exact ih.trans (isolates_turn (awaiting_moves awaiting (moves_of_turns before)) found cause)

end Turn

section Handle

variable {now : Time} {draw : Nat} {message : Message}

theorem Dispatches.caller {call : Call}
    (dispatches : Dispatches peers dealer (.handle now draw session message) call later) :
    call.caller = session := by
  obtain ⟨_, _, _, _, _, same, -⟩ := dispatches.request
  exact (Operation.handle.inj same).2.2.1.symm

theorem isolates_dispatch {call : Call} (fresh : DrawsFresh dealer later)
    (dispatches : Dispatches peers dealer (.handle now draw session message) call later) :
    Isolates session .call dealer.calls.length dealer later where
  persists := dispatches.persists
  same := by
    intro number apart
    have made : later.calls[dealer.calls.length]? = some call := by simp [dispatches.calls]
    have other : number ≠ dealer.calls.length := by
      rintro rfl
      exact apart call made ⟨Nat.le_refl _, dispatches.caller⟩
    obtain ⟨-, untracked⟩ := fresh call (by simp [dispatches.calls])
    refine ⟨?_, fun key index => ⟨fun tracked => ?_, fun tracked => ?_⟩, fun key foreign => ?_⟩
    · rw [dispatches.calls, List.getElem?_append]
      split
      · rfl
      · rw [List.getElem?_eq_none (by simp; omega), List.getElem?_eq_none (by omega)]
    · rw [dispatches.tracked] at tracked
      rcases find?_tracking_cases tracked with ⟨_, _, _, _, place⟩ | before
      · exact absurd (Prod.mk.inj place).1 other
      · exact before
    · rw [dispatches.tracked, find?_tracking_of_notMem, tracked]
      intro member
      obtain ⟨target, among, rfl⟩ := List.mem_map.mp member
      rw [untracked target among] at tracked
      cases tracked
    · rw [dispatches.cancelable]
      split
      · rw [Keyed.find?_insert, if_neg]
        rintro rfl
        exact foreign dispatches.caller
      · rfl
  left := by
    intro number index holder target held located _
    have bound := (List.getElem?_eq_some_iff.mp held).1
    refine ⟨holder, target, ?_, located, rfl, rfl⟩
    rw [dispatches.calls, List.getElem?_append_left bound, held]
  effects := by
    obtain ⟨payload, grown⟩ := dispatches.effects
    refine ⟨_, grown, fun effect member => ?_⟩
    obtain ⟨receiver, rpc, sent, among, rfl⟩ := send_of_mailing member
    obtain ⟨target, inside, same⟩ := List.mem_map.mp among
    exact .party (by simp [dispatches.calls]) ⟨Nat.le_refl _, dispatches.caller⟩
      (.inr ⟨target, inside, congrArg Prod.fst same⟩)

theorem isolates_register (dealer : Dealer) (now : Time) (session request : Nat) (options : Dict)
    (uri : String) :
    Isolates session kind known dealer (dealer.register now session request options uri) := by
  unfold register
  cases done : dealer.register? now session options uri with
  | error refusal => exact isolates_send dealer rfl
  | ok answer =>
    obtain ⟨registration, later⟩ := answer
    obtain ⟨_, _, events, directory, _, _, _, _, made, rfl⟩ := register?_cases done
    have attached := Statistics.extends_attach dealer.statistics [uri]
    exact (isolates_publish directory attached (session_of_register made)).trans
      (isolates_send _ rfl)

theorem owner_of_any {id : Nat} {registration : Registration}
    (found : dealer.directory.registration? id = some registration)
    (owned : ((dealer.directory.registration? id).any fun owned =>
      owned.session == session) = true) : registration.session = session := by
  simpa [found] using owned

theorem isolates_unregister (dealer : Dealer) (session request id : Nat) :
    Isolates session kind known dealer (dealer.unregister session request id) := by
  unfold unregister
  cases done : dealer.unregister? session id with
  | error refusal => exact isolates_send dealer rfl
  | ok later =>
    obtain ⟨owned, registration, events, directory, gone, rfl⟩ := unregister?_cases done
    have owner := owner_of_any (unregister_eq_ok gone).1 owned
    have own : ∀ event ∈ events, event.session = session := fun event member =>
      (session_of_unregister gone event member).trans owner
    exact (isolates_publish directory (Statistics.extends_refl _) own).trans (isolates_send _ rfl)

theorem isolates_handle (awaiting : dealer.Awaiting)
    (fresh : DrawsFresh dealer (dealer.step peers (.handle now draw session message))) :
    Isolates session message.kind dealer.calls.length dealer
      (dealer.step peers (.handle now draw session message)) := by
  have handled := handled_step awaiting.toLinked peers now draw session message
  generalize dealer.step peers (.handle now draw session message) = later at handled fresh ⊢
  cases handled with
  | register reads => exact isolates_register dealer now session _ _ _
  | unregister reads => exact isolates_unregister dealer session _ _
  | refuse reads => exact isolates_send dealer rfl
  | turns turns => exact isolates_turns awaiting turns
  | @call request options uri payload reads =>
    rcases call_cases dealer peers now draw session request options uri payload reads with
      ⟨statistics, rpc, reply, more, answered⟩ | ⟨call, dispatches⟩
    · rw [answered]
      have counted : Isolates session message.kind dealer.calls.length dealer
          { dealer with statistics } :=
        isolates_aside (aside_count more) ⟨[], by simp, by simp⟩
      exact counted.trans (isolates_send _ reply)
    · rw [← Rpc.kind_of_ofMessage reads]
      exact isolates_dispatch fresh dispatches

theorem registration_handle (linked : dealer.Linked) (wellFormed : dealer.directory.WellFormed)
    (ends : dealer.Ends (.handle now draw session message)) {id : Nat}
    {registration : Registration} (foreign : registration.session ≠ session) :
    (dealer.step peers (.handle now draw session message)).directory.registration? id =
        some registration ↔
      dealer.directory.registration? id = some registration := by
  have handled := handled_step linked peers now draw session message
  generalize dealer.step peers (.handle now draw session message) = later at handled ⊢
  cases handled with
  | refuse reads => rw [directory_refuse]
  | turns turns => rw [directory_turns turns]
  | @call request options uri payload reads =>
    rcases call_cases dealer peers now draw session request options uri payload reads with
      ⟨statistics, rpc, _, _, answered⟩ | ⟨call, dispatches⟩
    · rw [answered, directory_send]
    · rcases dispatches.directory with same | ⟨entry, drawn, same⟩
      · rw [same]
      · rw [same]
        rfl
  | @register request options uri reads =>
    unfold register
    cases done : dealer.register? now session options uri with
    | error refusal => rw [directory_refuse]
    | ok answer =>
      obtain ⟨added, later⟩ := answer
      obtain ⟨policy, invoke, events, directory, matched, invoked, valid, unreserved, made, rfl⟩ :=
        register?_cases done
      have asks : Asks (.handle now draw session message)
          (.register now session ⟨policy, uri⟩ invoke options) :=
        .register reads matched invoked ⟨valid, unreserved⟩
      have room : dealer.directory.HasRoom ⟨policy, uri⟩ := ends _ asks ⟨_, made⟩
      obtain ⟨own, grown⟩ := registration_register wellFormed room made
      rw [directory_send]
      refine grown.trans (or_iff_left ?_)
      rintro ⟨-, rfl⟩
      exact foreign own
  | @unregister request id' reads =>
    unfold unregister
    cases done : dealer.unregister? session id' with
    | error refusal => rw [directory_refuse]
    | ok later =>
      obtain ⟨owned, removed, events, directory, gone, rfl⟩ := unregister?_cases done
      rw [directory_send]
      refine (registration_unregister gone).trans (and_iff_right_of_imp fun live => ?_)
      rintro rfl
      exact foreign (owner_of_any live owned)

theorem aside_of_registering (linked : dealer.Linked)
    (registering : message.kind = .register ∨ message.kind = .unregister) :
    dealer.Aside (dealer.step peers (.handle now draw session message)) := by
  have handled := handled_step linked peers now draw session message
  generalize dealer.step peers (.handle now draw session message) = later at handled ⊢
  cases handled with
  | register reads => exact aside_register dealer now session _ _ _
  | unregister reads => exact aside_unregister dealer session _ _
  | call reads | refuse reads =>
    rw [← Rpc.kind_of_ofMessage reads] at registering
    simp [Rpc.kind] at registering
  | turns turns =>
    rcases turns.cases_head with rfl | ⟨middle, turn, -⟩
    · exact aside_count (Statistics.extends_refl _)
    · obtain ⟨found, cause⟩ := turn
      have kind := cause.kind_cases
      rcases registering with same | same <;> simp [same] at kind

end Handle

/--
A message of a session leaves all registrations of other sessions, changes only the calls that it is
about, which the session makes or serves, and finishes no target of another session. It is answered to
the session, and told to the parties of these calls.
-/
theorem sessions_are_isolated (peers : Peers) (options : Options) (operations : List Operation)
    (now : Time) (draw session : Nat) (message : Message)
    (fresh : RunsFresh peers options (operations ++ [.handle now draw session message]))
    (ends : RunsEnd peers options (operations ++ [.handle now draw session message])) :
    let dealer := run peers options operations
    let later := dealer.step peers (.handle now draw session message)
    (∀ id registration, registration.session ≠ session →
      (later.directory.registrations.find? id = some registration ↔
        dealer.directory.registrations.find? id = some registration)) ∧
    (∀ number, (∀ call, later.calls[number]? = some call →
        ¬ call.IsSubject session message.kind dealer.calls.length number) →
      later.calls[number]? = dealer.calls[number]? ∧
      (∀ key index, later.tracked.find? key = some (number, index) ↔
        dealer.tracked.find? key = some (number, index)) ∧
      ∀ key, key.1 ≠ session → (later.cancelable.find? key = some number ↔
        dealer.cancelable.find? key = some number)) ∧
    (∀ (number index : Nat) (call : Call) (target : Call.Target),
      dealer.calls[number]? = some call → call.targets[index]? = some target →
        target.callee ≠ session → ∃ (after : Call) (left : Call.Target),
          later.calls[number]? = some after ∧ after.targets[index]? = some left ∧
            left.key = target.key ∧ left.state.isFinished = target.state.isFinished) ∧
    (message.kind = .register ∨ message.kind = .unregister →
      later.calls = dealer.calls ∧ later.tracked = dealer.tracked ∧
        later.cancelable = dealer.cancelable) ∧
    ∃ new, later.effects = dealer.effects ++ new ∧
      ∀ effect ∈ new, Reaches session message.kind dealer.calls.length later effect := by
  intro dealer later
  obtain ⟨earlier, drawn⟩ := runsFresh_concat fresh
  obtain ⟨ended, last⟩ := runsEnd_concat ends
  have awaiting := awaiting_run peers options operations earlier
  have wellFormed := wellFormed_of_runsEnd peers options operations ended
  have isolates := isolates_handle awaiting drawn
  refine ⟨?_, fun _ => isolates.same, fun _ _ _ _ => isolates.left, ?_, isolates.effects⟩
  · intro id registration foreign
    exact registration_handle awaiting.toLinked wellFormed last foreign
  · intro registering
    have aside : dealer.Aside later := aside_of_registering awaiting.toLinked registering
    exact ⟨aside.calls, aside.tracked, aside.cancelable⟩

theorem sessions_are_isolated_of_failure :
    let operations : List Operation :=
      [.handle 0 0 1 ⟨.register, [.ofNat 1, .dict [], .text "sum"]⟩,
        .handle 0 0 2 ⟨.register, [.ofNat 1, .dict [], .text "mul"]⟩,
        .handle 0 0 3 ⟨.call, [.ofNat 1, .dict [], .text "sum"]⟩,
        .handle 0 0 3 ⟨.call, [.ofNat 2, .dict [], .text "mul"]⟩]
    let failing : Message :=
      ⟨.error, [.ofNat 68, .ofNat 1, .dict [], .text "app.error.broken"]⟩
    let dealer := run obliging {} operations
    let later := dealer.step obliging (.handle 0 0 1 failing)
    RunsFresh obliging {} (operations ++ [.handle 0 0 1 failing]) ∧
      RunsEnd obliging {} (operations ++ [.handle 0 0 1 failing]) ∧
      later.calls[0]? ≠ dealer.calls[0]? ∧ later.calls[1]? = dealer.calls[1]? ∧
      (later.tracked.find? (2, 1) = some (1, 0) ↔ dealer.tracked.find? (2, 1) = some (1, 0)) ∧
      ∃ new, later.effects = dealer.effects ++ new ∧
        ∀ effect ∈ new, Reaches 1 .error 2 later effect := by
  intro operations failing dealer later
  have fresh : RunsFresh obliging {} (operations ++ [.handle 0 0 1 failing]) := by decide +kernel
  have ends : RunsEnd obliging {} (operations ++ [.handle 0 0 1 failing]) := by
    apply runsEnd_of_hasIds
    decide +kernel
  obtain ⟨-, same, -, -, effects⟩ :=
    sessions_are_isolated obliging {} operations 0 0 1 failing fresh ends
  have foreign : ∀ call ∈ later.calls[1]?, ¬ ∃ target ∈ call.targets, target.callee = 1 := by
    decide +kernel
  obtain ⟨calls, tracked, -⟩ := same 1 foreign
  exact ⟨fresh, ends, by decide +kernel, calls, tracked (2, 1) 0, effects⟩

end Dealer

end CallRouter
