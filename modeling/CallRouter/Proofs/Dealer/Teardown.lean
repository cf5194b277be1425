import CallRouter.Proofs.Dealer.Elsewhere
import CallRouter.Proofs.Dealer.NoneLost
import CallRouter.Proofs.Registration.Ownership

/-!
What closing a session does to the calls and to the other sessions. Its targets are lost first, which
ends the calls that have no others, and then its own calls are abandoned.
-/

namespace CallRouter.Dealer

open Relation

variable {peers : Peers} {dealer later : Dealer} {session : Nat} {call holder after : Call}

structure Bereaved (session : Nat) (call after : Call) (sent : List (Nat × Message)) : Prop where
  origin : after.origin = call.origin
  sound : after.Sound
  spared : (after.targets.filter fun target => target.callee ≠ session) =
    call.targets.filter fun target => target.callee ≠ session
  ending : after.isCompleted = call.isCompleted ∧ sent = [] ∨
    call.isCompleted = false ∧ after.isCompleted = true ∧ after.unfinished = 0 ∧
      sent = [(call.caller, (ended call "callee.lost" .canceled).message)].filter
        fun message => message.1 ≠ session

theorem filter_modify {α : Type} {keep : α → Bool} {change : α → α} {items : List α} {index : Nat}
    {item : α} (found : items[index]? = some item) (before : keep item = false)
    (after : keep (change item) = false) :
    (items.modify index change).filter keep = items.filter keep := by
  induction items generalizing index with
  | nil => simp at found
  | cons first items ih =>
    cases index with
    | zero =>
      obtain rfl : first = item := by simpa using found
      simp [before, after]
    | succ index =>
      have deeper : items[index]? = some item := by simpa using found
      simp [List.filter_cons, ih deeper]

theorem spared_loss {index : Nat} {target : Call.Target}
    (located : call.targets[index]? = some target) (served : target.callee = session) :
    ((call.turn (.loss index)).call.targets.filter fun target => target.callee ≠ session) =
      call.targets.filter fun target => target.callee ≠ session := by
  have settled : (call.turn (.loss index)).call.targets = (call.settled index .error).targets := by
    simp only [Call.turn]
    split <;> rfl
  rw [settled]
  exact filter_modify located (by simp [served]) (by simp [served, Call.Target.finished])

theorem ended_of_origin {first : Call} (same : call.origin = first.origin) (reason : String)
    (error : ErrorUri) : ended call reason error = ended first reason error := by
  have request : call.request = first.request := by simpa using congrArg Call.request same
  rw [ended, ended, request]

theorem abroad_ended (valid : isValidId call.request = true) (receiver : Nat) (reason : String)
    (error : ErrorUri) :
    abroad session [(receiver, ended call reason error)] =
      [(receiver, (ended call reason error).message)].filter fun message => message.1 ≠ session := by
  have known : Uri.isValid error.uri = true := by cases error <;> decide
  have sendable : (ended call reason error).isSendable = true :=
    Rpc.isSendable_error valid known .call _ _
  simp [abroad, posted, sendable]

theorem bereaved_loss {sent : List (Nat × Message)} {index : Nat} {target : Call.Target}
    (bereaved : Bereaved session call holder sent) (valid : isValidId call.request = true)
    (located : holder.targets[index]? = some target) (left : target.state.isFinished = false)
    (served : target.callee = session) :
    Bereaved session call (holder.turn (.loss index)).call
      (sent ++ abroad session (holder.turn (.loss index)).sent) := by
  have admits : holder.Admits (.loss index) := ⟨target, located, left⟩
  have sound := Call.turn_sound admits bereaved.sound
  have caller : holder.caller = call.caller := by simpa using congrArg Call.caller bereaved.origin
  refine ⟨(Call.origin_turn holder _).trans bereaved.origin, sound,
    (spared_loss located served).trans bereaved.spared, ?_⟩
  rcases bereaved.ending with ⟨same, rfl⟩ | ⟨_, _, none, _⟩
  · cases done : holder.isCompleted with
    | true =>
      left
      have silent : (holder.turn (.loss index)).sent = [] := by simp [Call.turn, done]
      rw [Call.turn_isCompleted admits done, silent, ← same, done]
      exact ⟨rfl, rfl⟩
    | false =>
      by_cases more : 0 < holder.remaining - 1
      · left
        simp [Call.turn, done, more, ← same, abroad, posted]
      · right
        have ended : (holder.turn (.loss index)).call.isCompleted = true := by
          simp [Call.turn, more]
        have none : (holder.turn (.loss index)).call.unfinished = 0 := by
          rw [← sound.balanced]
          simp only [Call.turn, Call.remaining_settled, more, if_false, Call.remaining_completed]
          omega
        have last : (holder.turn (.loss index)).sent =
            [(call.caller, Dealer.ended call "callee.lost" .canceled)] := by
          simp [Call.turn, done, more, caller, ended_of_origin bereaved.origin]
        rw [last, abroad_ended valid]
        exact ⟨same ▸ done, ended, none, rfl⟩
  · -- There was no target left to lose.
    have finished := List.countP_eq_zero.mp none target (List.mem_of_getElem? located)
    simp [left] at finished

theorem changes_losses (losses : ReflTransGen (Loss session) dealer later)
    (sound : ∀ call ∈ dealer.calls, call.Sound)
    (valid : ∀ call ∈ dealer.calls, isValidId call.request = true) :
    ∃ new, Changes session (Bereaved session) dealer later new := by
  induction losses with
  | refl =>
    exact ⟨[], changes_refl fun call member => ⟨rfl, sound call member, rfl, .inl ⟨rfl, rfl⟩⟩⟩
  | @tail middle later _ loss ih =>
    obtain ⟨new, changes⟩ := ih
    cases loss with
    | @lose number index holder target found tracks served =>
      exact ⟨_, changes_turn changes found fun member bereaved =>
        bereaved_loss bereaved (valid _ member) tracks.located tracks.left served⟩

inductive Forsaken (session : Nat) (call : Call) : Call → List (Nat × Message) → Prop
  | spared : Forsaken session call call []
  | abandoned (opened : call.isCompleted = false) (made : call.caller = session) :
      Forsaken session call (call.turn .abandonment).call
        (abroad session (call.turn .abandonment).sent)

theorem Forsaken.same {sent : List (Nat × Message)} (forsaken : Forsaken session call after sent)
    (fixed : call.isCompleted = true ∨ call.caller ≠ session) : after = call ∧ sent = [] := by
  cases forsaken with
  | spared => exact ⟨rfl, rfl⟩
  | abandoned opened made => simp [opened, made] at fixed

theorem Forsaken.caller {sent : List (Nat × Message)}
    (forsaken : Forsaken session call after sent) : after.caller = call.caller := by
  cases forsaken with
  | spared => rfl
  | abandoned => exact Call.caller_turn call _

theorem changes_abandonments (abandonments : ReflTransGen (Abandonment session) dealer later) :
    ∃ new, Changes session (Forsaken session) dealer later new := by
  induction abandonments with
  | refl => exact ⟨[], changes_refl fun call member => .spared⟩
  | @tail middle later _ abandonment ih =>
    obtain ⟨new, changes⟩ := ih
    cases abandonment with
    | @abandon number holder found opened made =>
      refine ⟨_, changes_turn changes found fun member forsaken => ?_⟩
      cases forsaken with
      | spared => exact .abandoned opened made
      | abandoned => cases opened

theorem loseCall_completes (dealer : Dealer) (number : Nat) {other : Nat}
    (gone : number = other ∨ ∀ call ∈ dealer.calls[other]?, call.isCompleted = true) :
    ∀ call ∈ (dealer.loseCall number).calls[other]?, call.isCompleted = true := by
  intro after there
  cases found : dealer.calls[number]? with
  | none =>
    rw [show dealer.loseCall number = dealer by simp [loseCall, found]] at there
    rcases gone with rfl | done
    · simp [found] at there
    · exact done after there
  | some call =>
    cases done : call.isCompleted with
    | true =>
      rw [show dealer.loseCall number = dealer by
        simp [loseCall, found, Call.complete?, done]] at there
      rcases gone with rfl | done'
      · rw [found] at there
        obtain rfl := Option.some.inj there
        exact done
      · exact done' after there
    | false =>
      have bound := (List.getElem?_eq_some_iff.mp found).1
      have lost : (dealer.loseCall number).calls =
          dealer.calls.set number call.completed.interrupted := by
        simp [loseCall, found, Call.complete?_of_open done, interrupt_setCall _ bound]
      rw [lost, List.getElem?_set] at there
      by_cases here : number = other
      · rw [if_pos here] at there
        simp only [bound, if_true, Option.mem_some_iff] at there
        exact there ▸ rfl
      · rw [if_neg here] at there
        exact gone.resolve_left here after there

theorem loseCalls_complete (numbers : List Nat) {number : Nat}
    (gone : number ∈ numbers ∨ ∀ call ∈ dealer.calls[number]?, call.isCompleted = true) :
    ∀ call ∈ (numbers.foldl loseCall dealer).calls[number]?, call.isCompleted = true := by
  induction numbers generalizing dealer with
  | nil => exact gone.resolve_left List.not_mem_nil
  | cons first numbers ih =>
    rw [List.foldl_cons]
    apply ih
    rcases gone with member | done
    · rcases List.mem_cons.mp member with rfl | rest
      · exact .inr (loseCall_completes dealer number (.inl rfl))
      · exact .inl rest
    · exact .inr (loseCall_completes dealer first (.inr done))

theorem loseCalls_of_completed (numbers : List Nat)
    (done : ∀ number ∈ numbers, ∀ call ∈ dealer.calls[number]?, call.isCompleted = true) :
    numbers.foldl loseCall dealer = dealer := by
  induction numbers with
  | nil => rfl
  | cons number numbers ih =>
    have kept : dealer.loseCall number = dealer := by
      cases found : dealer.calls[number]? with
      | none => simp [loseCall, found]
      | some call => simp [loseCall, found, Call.complete?, done number (by simp) call found]
    rw [List.foldl_cons, kept]
    exact ih fun other member => done other (by simp [member])

namespace Order

variable (order : Order dealer session)

theorem changes (linked : dealer.Linked) (sound : ∀ call ∈ dealer.calls, call.Sound)
    (valid : ∀ call ∈ dealer.calls, isValidId call.request = true) :
    ∃ new, Changes session (Bereaved session) dealer order.severed new := by
  obtain ⟨new, changes⟩ := changes_losses (order.losses linked) sound valid
  let events := (Registration.Directory.unregisterAll order.owned dealer.directory).1
  refine ⟨events.map .publish ++ new, ?_, changes.length, ?_, ?_⟩
  · rw [← List.append_assoc]
    exact changes.effects
  · intro number call found
    rw [elsewhere_append, elsewhere_events, List.nil_append]
    exact changes.calls found
  · intro about unknown
    rw [elsewhere_append, elsewhere_events, List.nil_append]
    exact changes.silent unknown

theorem tracked_severed_iff {key place : Nat × Nat} :
    order.severed.tracked.find? key = some place ↔
      dealer.tracked.find? key = some place ∧ key.1 ≠ session := by
  have kept : order.severed.tracked = dealer.tracked.filter fun key _ => key.1 ≠ session := rfl
  rw [kept, Keyed.find?_filter, decide_eq_true_eq]

theorem awaits (awaiting : order.severed.Awaiting) {number : Nat}
    (found : order.severed.calls[number]? = some call) (opened : call.isCompleted = false) :
    ∃ index target, order.severed.tracked.find? target.key = some (number, index) ∧
      target ∈ call.targets ∧ target.state.isFinished = false ∧ target.callee ≠ session := by
  by_contra nothing
  have done : call.isCompleted = true := by
    apply awaiting.untracked found
    intro key index located
    obtain ⟨other, target, held, tracks, rfl⟩ := awaiting.tracked located
    obtain rfl : call = other := Option.some.inj (found.symm.trans held)
    exact nothing ⟨index, target, located, List.mem_of_getElem? tracks.located, tracks.left,
      (order.tracked_severed_iff.mp located).2⟩
  simp [done] at opened

end Order

def reachable (session : Nat) (call : Call) : List Call.Target :=
  call.targets.filter fun target =>
    target.state == .active && isValidId target.invocation && target.callee ≠ session

/--
What becomes of a call when a session closes, and what is sent about it to the other sessions: the
caller hears of it when its last targets were lost, and the targets of an abandoned call are
interrupted.
-/
structure TornDown (session : Nat) (call after : Call) (sent : List (Nat × Message)) : Prop where
  completed : call.isCompleted = true → after.isCompleted = true ∧ sent = []
  orphaned : call.isCompleted = false → call.caller ≠ session →
    (∀ target ∈ call.targets, target.state.isFinished = false → target.callee = session) →
      after.isCompleted = true ∧
        sent = [(call.caller, (ended call "callee.lost" .canceled).message)]
  served : call.isCompleted = false → call.caller ≠ session →
    (∃ target ∈ call.targets, target.state.isFinished = false ∧ target.callee ≠ session) →
      after.isCompleted = false ∧ sent = []
  made : call.isCompleted = false → call.caller = session →
    after.isCompleted = true ∧
      sent = (reachable session call).map fun target =>
        (target.callee, (target.interrupt .killNoWait "caller.lost").2.message)

theorem abroad_interrupts (call : Call) (mode : CancelMode) (reason : String) :
    abroad session (call.interrupts mode reason) =
      (reachable session call).map fun target =>
        (target.callee, (target.interrupt mode reason).2.message) := by
  have sendable (target : Call.Target) :
      (target.interrupt mode reason).2.isSendable = isValidId target.invocation :=
    Rpc.isSendable_interrupt _ _
  simp only [abroad, posted, Call.interrupts, Call.activeTargets, reachable, List.filter_map,
    List.map_map, List.filter_filter, Function.comp_def, sendable]
  congr 1
  apply List.filter_congr
  intro target _
  by_cases home : target.callee = session <;> simp [Call.Target.interrupt, home, Bool.and_comm]

theorem reachable_of_spared
    (spared : (after.targets.filter fun target => target.callee ≠ session) =
      call.targets.filter fun target => target.callee ≠ session) :
    reachable session after = reachable session call := by
  have narrow (call : Call) : reachable session call =
      (call.targets.filter fun target => target.callee ≠ session).filter fun target =>
        target.state == .active && isValidId target.invocation := by
    rw [List.filter_filter]
    rfl
  rw [narrow, narrow, spared]

theorem mem_of_spared {target : Call.Target}
    (spared : (after.targets.filter fun target => target.callee ≠ session) =
      call.targets.filter fun target => target.callee ≠ session)
    (apart : target.callee ≠ session) : target ∈ after.targets ↔ target ∈ call.targets := by
  have same : target ∈ (after.targets.filter fun target => target.callee ≠ session) ↔
      target ∈ call.targets.filter fun target => target.callee ≠ session := by rw [spared]
  simpa [apart] using same

theorem Bereaved.unfinished {sent : List (Nat × Message)}
    (bereaved : Bereaved session call after sent) {target : Call.Target}
    (member : target ∈ call.targets) (left : target.state.isFinished = false)
    (apart : target.callee ≠ session) : after.unfinished ≠ 0 := by
  intro none
  have inside := (mem_of_spared bereaved.spared apart).mpr member
  have finished := List.countP_eq_zero.mp none target inside
  simp [left] at finished

theorem tornDown_of_changes {sent more : List (Nat × Message)}
    (bereaved : Bereaved session call holder sent) (forsaken : Forsaken session holder after more)
    (awaits : holder.isCompleted = false →
      ∃ target ∈ holder.targets, target.state.isFinished = false ∧ target.callee ≠ session)
    (abandoned : holder.caller = session → after.isCompleted = true) :
    TornDown session call after (sent ++ more) := by
  have caller : holder.caller = call.caller := by simpa using congrArg Call.caller bereaved.origin
  have still (fixed : holder.isCompleted = true ∨ call.caller ≠ session) :
      after = holder ∧ more = [] := forsaken.same (caller ▸ fixed)
  refine ⟨?_, ?_, ?_, ?_⟩
  · intro done
    rcases bereaved.ending with ⟨same, rfl⟩ | ⟨opened, _⟩
    · obtain ⟨rfl, rfl⟩ := still (.inl (same.trans done))
      exact ⟨same.trans done, rfl⟩
    · simp [done] at opened
  · intro opened foreign lost
    obtain ⟨rfl, rfl⟩ := still (.inr foreign)
    rcases bereaved.ending with ⟨same, rfl⟩ | ⟨_, done, _, rfl⟩
    · obtain ⟨target, member, left, apart⟩ := awaits (same.trans opened)
      have inside := (mem_of_spared bereaved.spared apart).mp member
      exact absurd (lost target inside left) apart
    · exact ⟨done, by simp [foreign]⟩
  · rintro opened foreign ⟨target, member, left, apart⟩
    obtain ⟨rfl, rfl⟩ := still (.inr foreign)
    rcases bereaved.ending with ⟨same, rfl⟩ | ⟨_, _, none, _⟩
    · exact ⟨same.trans opened, rfl⟩
    · exact absurd none (bereaved.unfinished member left apart)
  · intro opened own
    refine ⟨abandoned (caller.trans own), ?_⟩
    have silent : sent = [] := by
      rcases bereaved.ending with ⟨_, rfl⟩ | ⟨_, _, _, rfl⟩
      · rfl
      · simp [own]
    rw [silent, List.nil_append, ← reachable_of_spared bereaved.spared, ← abroad_interrupts]
    cases forsaken with
    | abandoned opened' made => rfl
    | spared =>
      -- It ended with its last target, so that there is nobody to interrupt.
      have none : holder.unfinished = 0 := by
        rcases bereaved.ending with ⟨same, _⟩ | ⟨_, _, none, _⟩
        · have done := abandoned (caller.trans own)
          simp [same, opened] at done
        · exact none
      have nobody : holder.activeTargets = [] := by
        rw [Call.activeTargets, List.filter_eq_nil_iff]
        intro target member
        simpa using Call.not_active_of_unfinished none member
      simp [Call.interrupts, nobody, abroad, posted]

/-- Nothing is left of a session that closed, except calls that ended before. -/
structure Gone (dealer : Dealer) (session : Nat) : Prop where
  owned : dealer.directory.ownedBy session = []
  tracked : ∀ invocation, dealer.tracked.find? (session, invocation) = none
  cancelable : ∀ request, dealer.cancelable.find? (session, request) = none
  made : ∀ call ∈ dealer.calls, call.caller = session → call.isCompleted = true

theorem less_of_abandonments (abandonments : ReflTransGen (Abandonment session) dealer later) :
    (∀ key place, later.tracked.find? key = some place → dealer.tracked.find? key = some place) ∧
      ∀ key number, later.cancelable.find? key = some number →
        dealer.cancelable.find? key = some number := by
  induction abandonments with
  | refl => exact ⟨fun _ _ => id, fun _ _ => id⟩
  | tail _ abandonment ih =>
    obtain ⟨tracked, cancelable⟩ := ih
    cases abandonment with
    | abandon found opened made =>
      refine ⟨?_, ?_⟩
      · intro key place located
        exact tracked key place (find?_releasing.mp located).1
      · intro key number located
        simp only [turn] at located
        split at located
        · exact cancelable key number (find?_forgetting.mp located).1
        · exact cancelable key number located

theorem filter_of_absent {ν : Type} {entries : Keyed (Nat × Nat) ν}
    (absent : ∀ other, entries.find? (session, other) = none) :
    (entries.filter fun key _ => key.1 ≠ session) = entries ∧
      (entries.filter fun key _ => key.1 = session).entries = [] := by
  have apart {key : Nat × Nat} {value : ν} (located : entries.find? key = some value) :
      key.1 ≠ session := by
    rintro rfl
    simp [absent key.2] at located
  constructor
  · rw [← Keyed.filter_true entries, Keyed.filter_filter]
    apply Keyed.filter_congr
    intro key value located
    simpa using apart located
  · rw [List.eq_nil_iff_forall_not_mem]
    rintro ⟨key, value⟩ member
    obtain ⟨inside, own⟩ := (Keyed.mem_filter _ _ _ _).mp member
    exact apart ((Keyed.find?_eq_some_iff _).mpr inside) (by simpa using own)

theorem Gone.severed (gone : dealer.Gone session) (order : Order dealer session) :
    order.severed = dealer := by
  obtain ⟨owned, served, ownedAll, servedAll⟩ := order
  obtain rfl : owned = [] := (gone.owned ▸ ownedAll).eq_nil
  obtain rfl : served = [] := ((filter_of_absent gone.tracked).2 ▸ servedAll).eq_nil
  simp only [Order.severed, Order.deserted, Order.left, loseTargets,
    Registration.Directory.unregisterAll, (filter_of_absent gone.tracked).1,
    (filter_of_absent gone.cancelable).1, List.map_nil, List.foldl_nil, List.append_nil]

theorem Gone.closes (gone : dealer.Gone session) (closes : dealer.Closes session later) :
    later = dealer := by
  cases closes with
  | close order all =>
    rw [gone.severed order] at all ⊢
    apply loseCalls_of_completed
    intro number member call found
    obtain ⟨_, _, holder, _, held, made⟩ := mem_madeBy.mp (all.mem_iff.mp member)
    obtain rfl : holder = call := Option.some.inj (held.symm.trans found)
    exact gone.made holder (List.mem_of_getElem? held) made

theorem Closes.directory (closes : dealer.Closes session later) (linked : dealer.Linked) :
    ∃ ids, ids.Perm (dealer.directory.ownedBy session) ∧
      later.directory = (Registration.Directory.unregisterAll ids dealer.directory).2 := by
  cases closes with
  | close order all =>
    exact ⟨order.owned, order.ownedAll, order.directory linked all⟩

theorem Order.ends (order : Order dealer session) (awaiting : order.severed.Awaiting)
    {made : List Nat}
    (all : made.Perm (order.severed.madeBy session)) {number : Nat}
    (found : order.severed.calls[number]? = some call) (own : call.caller = session) :
    ∀ after ∈ (made.foldl loseCall order.severed).calls[number]?, after.isCompleted = true := by
  apply loseCalls_complete
  cases done : call.isCompleted with
  | true =>
    right
    intro holder held
    rwa [Option.some.inj (held.symm.trans found)]
  | false =>
    left
    obtain ⟨index, target, located, _⟩ := order.awaits awaiting found done
    exact all.mem_iff.mpr (mem_madeBy.mpr ⟨target.key, index, call, located, found, own⟩)

theorem Closes.registrations (closes : dealer.Closes session later) (linked : dealer.Linked)
    (id : Nat) (registration : Registration) :
    later.directory.registration? id = some registration ↔
      dealer.directory.registration? id = some registration ∧ registration.session ≠ session := by
  obtain ⟨ids, owned, directory⟩ := closes.directory linked
  rw [directory]
  exact Registration.Directory.registration_of_closed owned

theorem Awaiting.gone (awaiting : dealer.Awaiting) (closes : dealer.Closes session later) :
    later.Gone session := by
  obtain ⟨ids, owned, directory⟩ := closes.directory awaiting.toLinked
  cases closes with
  | @close order made all =>
    have moves : Moves obliging (.closeSession session) dealer order.severed :=
      order.moves awaiting.toLinked
    have abandonments := order.abandonments all
    obtain ⟨tracked, cancelable⟩ := less_of_abandonments abandonments
    obtain ⟨_, forsakes⟩ := changes_abandonments abandonments
    refine ⟨?_, ?_, ?_, ?_⟩
    · rw [directory]
      exact Registration.Directory.ownedBy_of_closed owned
    · intro invocation
      rw [← Option.not_isSome_iff_eq_none, Option.isSome_iff_exists]
      rintro ⟨place, located⟩
      exact (order.tracked_severed_iff.mp (tracked _ _ located)).2 rfl
    · intro request
      rw [← Option.not_isSome_iff_eq_none, Option.isSome_iff_exists]
      rintro ⟨number, located⟩
      have before := cancelable _ _ located
      simp [order.severed_retired] at before
    · intro after member own
      obtain ⟨number, there⟩ := List.mem_iff_getElem?.mp member
      have bound := (List.getElem?_eq_some_iff.mp there).1
      rw [forsakes.length] at bound
      have found := List.getElem?_eq_getElem bound
      obtain ⟨same, located, forsaken⟩ := forsakes.calls found
      obtain rfl : same = after := Option.some.inj (located.symm.trans there)
      exact order.ends (awaiting_moves awaiting moves) all found (forsaken.caller ▸ own) same there

theorem Kept.closes {skipped lost : Nat → Prop} (kept : Kept skipped lost dealer)
    (closes : dealer.Closes session later) :
    (∃ new, Changes session (TornDown session) dealer later new) ∧ later.Gone session := by
  refine ⟨?_, kept.toAwaiting.gone closes⟩
  cases closes with
  | @close order made all =>
    have moves : Moves obliging (.closeSession session) dealer order.severed :=
      order.moves kept.toLinked
    have severed := awaiting_moves kept.toAwaiting moves
    obtain ⟨new, bereaves⟩ := order.changes kept.toLinked kept.sound kept.valid
    obtain ⟨more, forsakes⟩ := changes_abandonments (order.abandonments all)
    refine ⟨new ++ more, bereaves.trans forsakes ?_⟩
    intro number call holder after sent rest found there bereaved forsaken
    refine tornDown_of_changes bereaved forsaken ?_ ?_
    · intro opened
      obtain ⟨_, target, _, awaited⟩ := order.awaits severed found opened
      exact ⟨target, awaited⟩
    · intro own
      exact order.ends severed all found own after there

theorem teardown_exact (peers : Peers) (options : Options) (operations : List Operation)
    (valid : ∀ operation ∈ operations, operation.IsValid)
    (fresh : RunsFresh peers options operations) (session : Nat) :
    let dealer := run peers options operations
    dealer.Closes session (dealer.closeSession session) ∧
    ∀ later, dealer.Closes session later →
      (∀ id registration, later.directory.registration? id = some registration ↔
        dealer.directory.registration? id = some registration ∧ registration.session ≠ session) ∧
      (∃ new, later.effects = dealer.effects ++ new ∧
        (∀ number call, dealer.calls[number]? = some call →
          ∃ after, later.calls[number]? = some after ∧
            TornDown session call after (elsewhere session (some number) new)) ∧
        ∀ about, (∀ number ∈ about, dealer.calls.length ≤ number) →
          elsewhere session about new = []) ∧
      (∀ invocation, later.tracked.find? (session, invocation) = none) ∧
      (∀ request, later.cancelable.find? (session, request) = none) ∧
      ∀ again, later.Closes session again → again = later := by
  intro dealer
  refine ⟨closes_closeSession dealer session, fun later closes => ?_⟩
  have kept := kept_run peers options operations valid fresh
  obtain ⟨⟨new, changes⟩, gone⟩ := kept.closes closes
  have registrations := closes.registrations kept.toLinked
  exact ⟨registrations, ⟨new, changes.effects, fun _ _ => changes.calls, fun _ => changes.silent⟩,
    gone.tracked, gone.cancelable, fun again => gone.closes⟩

/-- A target whose invocation has no valid id hears nothing, neither of the call nor of its end. -/
theorem teardown_without_interrupt :
    let peers : Peers := { supports := fun _ _ _ => true, requestId := fun _ count => count }
    let operations : List Operation :=
      [.handle 0 0 1 ⟨.register, [.ofNat 1, .dict [], .text "sum"]⟩,
        .handle 0 0 2 ⟨.call, [.ofNat 1, .dict [], .text "sum"]⟩]
    let dealer := run peers {} operations
    (∀ operation ∈ operations, operation.IsValid) ∧ RunsFresh peers {} operations ∧
      (∃ call target, dealer.calls[0]? = some call ∧ call.isCompleted = false ∧ call.caller = 2 ∧
        target ∈ call.targets ∧ target.callee = 1 ∧ target.state = .active) ∧
      (dealer.closeSession 2).effects = dealer.effects := by
  intro peers operations dealer
  refine ⟨?_, by decide +kernel, ?_, by decide +kernel⟩
  · simp only [operations, List.forall_mem_cons, List.not_mem_nil, false_imp_iff, implies_true,
      and_true]
    exact ⟨rfl, rfl⟩
  · let target : Call.Target :=
      { registration := 2, callee := 1, pattern := ⟨.exact, "sum"⟩, invocation := 0
        progressive := false }
    let call : Call :=
      { caller := 2, request := 1, procedure := "sum", options := {}, started := 0
        targets := [target] }
    have found : dealer.calls[0]? = some call := by decide +kernel
    exact ⟨call, target, found, rfl, rfl, by simp [call], rfl, rfl⟩

theorem teardown_of_caller_and_callee :
    let operations : List Operation :=
      [.handle 0 0 1 ⟨.register, [.ofNat 1, .dict [], .text "sum"]⟩,
        .handle 0 0 3 ⟨.register, [.ofNat 1, .dict [], .text "mul"]⟩,
        .handle 0 0 2 ⟨.call, [.ofNat 7, .dict [], .text "sum"]⟩,
        .handle 0 0 1 ⟨.call, [.ofNat 2, .dict [], .text "mul"]⟩]
    let dealer := run obliging {} operations
    let lost : Dict := [(Dict.Key.reason, .text "callee.lost")]
    let left : Dict :=
      [(Dict.Key.mode, .text "killnowait"), (Dict.Key.reason, .text "caller.lost")]
    (∀ operation ∈ operations, operation.IsValid) ∧ RunsFresh obliging {} operations ∧
      ∃ new, (dealer.closeSession 1).effects = dealer.effects ++ new ∧
        elsewhere 1 (some 0) new =
          [(2, ⟨.error, [.ofNat 48, .ofNat 7, .dict lost, .text "wamp.error.canceled"]⟩)] ∧
        elsewhere 1 (some 1) new = [(3, ⟨.interrupt, [.ofNat 1, .dict left]⟩)] ∧
        elsewhere 1 none new = [] := by
  intro operations dealer lost left
  have valid : ∀ operation ∈ operations, operation.IsValid := by
    simp only [operations, List.forall_mem_cons, List.not_mem_nil, false_imp_iff, implies_true,
      and_true]
    exact ⟨rfl, rfl, rfl, rfl⟩
  have fresh : RunsFresh obliging {} operations := by decide +kernel
  obtain ⟨closes, all⟩ := teardown_exact obliging {} operations valid fresh 1
  obtain ⟨-, ⟨new, grown, calls, silent⟩, -⟩ := all _ closes
  refine ⟨valid, fresh, new, grown, ?_, ?_, silent none (by simp)⟩
  · let target : Call.Target :=
      { registration := 2, callee := 1, pattern := ⟨.exact, "sum"⟩, invocation := 1
        progressive := false }
    let call : Call :=
      { caller := 2, request := 7, procedure := "sum", options := {}, started := 0
        targets := [target] }
    have found : dealer.calls[0]? = some call := by decide +kernel
    obtain ⟨after, _, torn⟩ := calls 0 call found
    exact (torn.orphaned rfl (by decide) (by simp [call, target])).2
  · let target : Call.Target :=
      { registration := 4, callee := 3, pattern := ⟨.exact, "mul"⟩, invocation := 1
        progressive := false }
    let call : Call :=
      { caller := 1, request := 2, procedure := "mul", options := {}, started := 0
        targets := [target] }
    have found : dealer.calls[1]? = some call := by decide +kernel
    obtain ⟨after, _, torn⟩ := calls 1 call found
    exact (torn.made rfl rfl).2

end CallRouter.Dealer
