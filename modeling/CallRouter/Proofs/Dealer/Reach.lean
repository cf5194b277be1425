import CallRouter.Proofs.Dealer.Moves
import CallRouter.Proofs.Registration.Lookup
import Mathlib.Data.List.Induction

namespace CallRouter.Dealer

variable {peers : Peers} {operation : Operation} {dealer later : Dealer} {call : Call}

theorem chooseRegistrations_frame {entry : Registration.Entry} {receiveProgress : Bool} {draw : Nat}
    {registrations : List Registration} {chosen : Dealer}
    (choice : dealer.chooseRegistrations entry receiveProgress draw = (registrations, chosen)) :
    chosen = { dealer with directory := chosen.directory } := by
  simp only [chooseRegistrations] at choice
  split at choice <;> obtain ⟨-, rfl⟩ := Prod.mk.inj choice <;> rfl

theorem chooseRegistrations_live {entry : Registration.Entry} {receiveProgress : Bool} {draw : Nat}
    {registrations : List Registration} {chosen : Dealer}
    (choice : dealer.chooseRegistrations entry receiveProgress draw = (registrations, chosen))
    {registration : Registration} (member : registration ∈ registrations) :
    ∃ id, dealer.directory.registration? id = some registration := by
  simp only [chooseRegistrations] at choice
  split at choice
  · obtain ⟨rfl, -⟩ := Prod.mk.inj choice
    exact Registration.Directory.live_of_members member
  · obtain ⟨rfl, -⟩ := Prod.mk.inj choice
    exact Registration.Directory.live_of_select (Option.mem_toList.mp member)

theorem chooseRegistrations_single {entry : Registration.Entry} {draw : Nat}
    {registrations : List Registration} {chosen : Dealer}
    (choice : dealer.chooseRegistrations entry false draw = (registrations, chosen)) :
    registrations.length ≤ 1 := by
  simp only [chooseRegistrations, Bool.and_false] at choice
  obtain ⟨rfl, -⟩ := Prod.mk.inj choice
  exact Option.length_toList_le

structure Fresh (call : Call) : Prop where
  origin : call.origin = call
  targeted : call.targets ≠ []
  agreed : ∀ target ∈ call.targets, target.progressive = true →
    call.options.receiveProgress = true
  single : call.options.receiveProgress = false → call.targets.length ≤ 1

theorem Fresh.active (fresh : Fresh call) :
    ∀ target ∈ call.targets, target.state = .active := by
  intro target member
  have same := congrArg Call.targets fresh.origin
  rw [← same] at member
  obtain ⟨before, _, rfl⟩ := List.mem_map.mp member
  rfl

theorem Fresh.pending (fresh : Fresh call) : call.state = .pending := by
  have same := congrArg Call.state fresh.origin
  exact same.symm

theorem Fresh.opened (fresh : Fresh call) : call.isCompleted = false := by
  simp [Call.isCompleted, fresh.pending]

theorem Fresh.sound (fresh : Fresh call) : call.Sound := by
  have balanced : call.remaining = call.unfinished := by
    have all : call.unfinished = call.targets.length := by
      rw [Call.unfinished, List.countP_eq_length]
      intro target member
      simp [fresh.active target member, Call.Target.State.isFinished]
    have count := congrArg Call.remaining fresh.origin
    rw [all, ← count]
    rfl
  exact
    { balanced
      awaited := by
        intro _
        have count := congrArg Call.remaining fresh.origin
        rw [← count]
        exact List.length_pos_of_ne_nil fresh.targeted
      pending := by
        intro _
        have mode := congrArg Call.cancelMode fresh.origin
        exact ⟨mode.symm, fun target member => by simp [fresh.active target member]⟩
      canceling := by simp [fresh.pending]
      completed := by simp [fresh.pending] }

theorem Dispatches.calls (dispatches : Dispatches peers dealer operation call later) :
    later.calls = dealer.calls ++ [call] := by
  cases dispatches with
  | dispatch reads valid agreed resolved choice any =>
    rw [dispatch_eq, chooseRegistrations_frame choice]

theorem Dispatches.options (dispatches : Dispatches peers dealer operation call later) :
    later.options = dealer.options := by
  cases dispatches with
  | dispatch reads valid agreed resolved choice any =>
    rw [dispatch_eq, chooseRegistrations_frame choice]

theorem Dispatches.tracked (dispatches : Dispatches peers dealer operation call later) :
    later.tracked = tracking dealer.calls.length 0 call.targets dealer.tracked := by
  cases dispatches with
  | dispatch reads valid agreed resolved choice any =>
    rw [dispatch_eq, chooseRegistrations_frame choice]

theorem Dispatches.cancelable (dispatches : Dispatches peers dealer operation call later) :
    later.cancelable = if peers.supports call.caller .caller Feature.callCanceling then
      dealer.cancelable.insert (call.caller, call.request) dealer.calls.length
      else dealer.cancelable := by
  cases dispatches with
  | dispatch reads valid agreed resolved choice any =>
    rw [dispatch_eq, chooseRegistrations_frame choice]
    rfl

theorem Dispatches.effects (dispatches : Dispatches peers dealer operation call later) :
    ∃ payload, later.effects = dealer.effects ++
      mailing dealer.calls.length (invocations peers dealer.options call payload) := by
  cases dispatches with
  | @dispatch _ _ _ _ _ _ _ payload _ _ _ _ reads valid agreed resolved choice any =>
    refine ⟨payload, ?_⟩
    rw [dispatch_eq, chooseRegistrations_frame choice]

theorem Dispatches.statistics (dispatches : Dispatches peers dealer operation call later) :
    later.statistics = recording (recording dealer.statistics (call.noteAt 0 .attempt))
      (call.targets.map fun target => (target.pattern, .invocation)) := by
  cases dispatches with
  | dispatch reads valid agreed resolved choice any =>
    rw [dispatch_eq, chooseRegistrations_frame choice]

theorem Dispatches.request (dispatches : Dispatches peers dealer operation call later) :
    ∃ now draw message options payload, operation = .handle now draw call.caller message ∧
      Rpc.ofMessage message = .ok (.call call.request options call.procedure payload) ∧
      callOptions peers call.caller options = .ok call.options := by
  cases dispatches with
  | dispatch reads valid agreed resolved choice any => exact ⟨_, _, _, _, _, rfl, reads, agreed⟩

theorem Dispatches.fresh (dispatches : Dispatches peers dealer operation call later) :
    Fresh call := by
  cases dispatches with
  | @dispatch now draw caller request _ _ uri _ terms _ registrations chosen reads valid agreed
      resolved choice any =>
    have serve := drawTargets_serve peers terms.receiveProgress chosen registrations
    have served : ∀ target ∈ (drawTargets peers terms.receiveProgress chosen registrations).1,
        target.origin = target ∧ (target.progressive = true → terms.receiveProgress = true) := by
      intro target member
      obtain ⟨registration, _, serves⟩ := serves_of_mem serve member
      rw [Serves] at serves
      rw [serves]
      refine ⟨rfl, fun progressive => ?_⟩
      exact (Bool.and_eq_true _ _ ▸ progressive).1
    refine ⟨?_, ?_, fun target member => (served target member).2, ?_⟩
    · have same : (drawTargets peers terms.receiveProgress chosen registrations).1.map
          Call.Target.origin = (drawTargets peers terms.receiveProgress chosen registrations).1 :=
        (List.map_congr_left fun target member => (served target member).1).trans (List.map_id' _)
      simp [Call.origin, newCall, same]
    · intro empty
      simp only [newCall] at empty
      rw [empty, List.forall₂_nil_right_iff] at serve
      exact any serve
    · intro unwanted
      have unwanted : terms.receiveProgress = false := unwanted
      rw [unwanted] at choice
      have count := serve.length_eq
      have few := chooseRegistrations_single choice
      rw [count] at few
      exact few

theorem Dispatches.serves (dispatches : Dispatches peers dealer operation call later)
    {target : Call.Target} (member : target ∈ call.targets) :
    ∃ id registration, dealer.directory.registration? id = some registration ∧
      target.registration = registration.id ∧ target.callee = registration.session := by
  cases dispatches with
  | @dispatch now draw caller request message options uri payload terms entry registrations chosen
      reads valid agreed resolved choice any =>
    have serve := drawTargets_serve peers terms.receiveProgress chosen registrations
    obtain ⟨registration, among, serves⟩ := serves_of_mem serve member
    obtain ⟨id, live⟩ := chooseRegistrations_live choice among
    rw [Serves] at serves
    exact ⟨id, registration, live, by rw [serves], by rw [serves]⟩

theorem Dispatches.linked (linked : dealer.Linked)
    (dispatches : Dispatches peers dealer operation call later) : later.Linked where
  tracked := by
    intro key number index located
    rw [dispatches.tracked] at located
    rcases find?_tracking_cases located with ⟨i, target, there, same, place⟩ | before
    · obtain ⟨rfl, rfl⟩ := Prod.mk.inj place
      refine ⟨call, target, by simp [dispatches.calls], ⟨?_, ?_, ?_⟩, same⟩
      · rw [same, dispatches.tracked]
        exact located
      · rw [Nat.zero_add]
        exact there
      · have active := dispatches.fresh.active target (List.mem_of_getElem? there)
        simp [active, Call.Target.State.isFinished]
    · obtain ⟨holder, target, held, tracks, same⟩ := linked.tracked before
      have bound := (List.getElem?_eq_some_iff.mp held).1
      refine ⟨holder, target, ?_, ⟨?_, tracks.located, tracks.left⟩, same⟩
      · rw [dispatches.calls, List.getElem?_append_left bound, held]
      · rw [same, dispatches.tracked]
        exact located
  cancelable := by
    intro key number located
    have cases : (key = (call.caller, call.request) ∧ number = dealer.calls.length) ∨
        dealer.cancelable.find? key = some number := by
      rw [dispatches.cancelable] at located
      split at located
      · rw [Keyed.find?_insert] at located
        split at located
        · rename_i same
          exact .inl ⟨same.symm, (Option.some.inj located).symm⟩
        · exact .inr located
      · exact .inr located
    rcases cases with ⟨rfl, rfl⟩ | before
    · exact ⟨call, by simp [dispatches.calls], rfl, dispatches.fresh.opened⟩
    · obtain ⟨holder, held, same, opened⟩ := linked.cancelable before
      have bound := (List.getElem?_eq_some_iff.mp held).1
      exact ⟨holder, by rw [dispatches.calls, List.getElem?_append_left bound, held], same, opened⟩
  effects := by
    intro session message number member
    obtain ⟨payload, grown⟩ := dispatches.effects
    rw [grown] at member
    rw [dispatches.calls, List.length_append]
    rcases List.mem_append.mp member with before | new
    · exact Nat.lt_add_right 1 (linked.effects before)
    · rw [mem_mailing new]
      simp

theorem linked_step (linked : dealer.Linked) (peers : Peers) (operation : Operation) :
    (dealer.step peers operation).Linked := by
  rcases step_cases linked peers operation with moves | ⟨call, dispatches⟩
  · exact linked_moves linked moves
  · exact dispatches.linked linked

theorem linked_run (peers : Peers) (options : Options) (operations : List Operation) :
    (run peers options operations).Linked := by
  induction operations using List.reverseRecOn with
  | nil => exact linked_initial options
  | append_singleton operations operation ih =>
    rw [run_concat]
    exact linked_step ih peers operation

def Persists (dealer later : Dealer) : Prop :=
  ∀ {number : Nat} {call : Call}, dealer.calls[number]? = some call →
    ∃ after, later.calls[number]? = some after ∧ after.origin = call.origin ∧
      (call.isCompleted = true → after.isCompleted = true) ∧ call.Advances after

theorem persists_refl (dealer : Dealer) : dealer.Persists dealer :=
  fun found => ⟨_, found, rfl, id, Call.advances_refl _⟩

theorem persists_trans {last : Dealer} (first : dealer.Persists later)
    (second : later.Persists last) : dealer.Persists last := by
  intro number call found
  obtain ⟨middle, there, same, done, advances⟩ := first found
  obtain ⟨after, located, equal, ended, further⟩ := second there
  exact ⟨after, located, equal.trans same, fun completed => ended (done completed),
    Call.advances_trans advances further⟩

theorem persists_move (move : Move peers operation dealer later) : dealer.Persists later := by
  intro number call found
  cases move with
  | aside aside => exact ⟨call, aside.calls ▸ found, rfl, id, Call.advances_refl call⟩
  | @turn turned holder event held cause =>
    rw [getElem?_turn held]
    by_cases here : turned = number
    · subst here
      obtain rfl : holder = call := Option.some.inj (held.symm.trans found)
      exact ⟨_, if_pos rfl, Call.origin_turn holder event, Call.turn_isCompleted cause.admits,
        Call.advances_turn holder event⟩
    · exact ⟨call, by rw [if_neg here, found], rfl, id, Call.advances_refl call⟩
  | retire closing => exact ⟨call, found, rfl, id, Call.advances_refl call⟩

theorem persists_moves (moves : Moves peers operation dealer later) : dealer.Persists later := by
  induction moves with
  | refl => exact persists_refl dealer
  | tail _ move ih => exact persists_trans ih (persists_move move)

theorem Dispatches.persists (dispatches : Dispatches peers dealer operation call later) :
    dealer.Persists later := by
  intro number other found
  have bound := (List.getElem?_eq_some_iff.mp found).1
  refine ⟨other, ?_, rfl, id, Call.advances_refl other⟩
  rw [dispatches.calls, List.getElem?_append_left bound, found]

theorem persists_step (linked : dealer.Linked) (peers : Peers) (operation : Operation) :
    dealer.Persists (dealer.step peers operation) := by
  rcases step_cases linked peers operation with moves | ⟨call, dispatches⟩
  · exact persists_moves moves
  · exact dispatches.persists

theorem persists_run (peers : Peers) (options : Options) (before after : List Operation) :
    (run peers options before).Persists (run peers options (before ++ after)) := by
  induction after using List.reverseRecOn with
  | nil =>
    rw [List.append_nil]
    exact persists_refl _
  | append_singleton after operation ih =>
    rw [← List.append_assoc, run_concat]
    exact persists_trans ih (persists_step (linked_run peers options _) peers operation)

theorem length_moves (moves : Moves peers operation dealer later) :
    later.calls.length = dealer.calls.length := by
  induction moves with
  | refl => rfl
  | tail _ move ih =>
    rw [← ih]
    cases move with
    | aside aside => rw [aside.calls]
    | turn found cause => simp [turn]
    | retire closing => rfl

theorem dispatches_of_length (linked : dealer.Linked)
    (added : (dealer.step peers operation).calls.length ≠ dealer.calls.length) :
    ∃ call, Dispatches peers dealer operation call (dealer.step peers operation) := by
  rcases step_cases linked peers operation with moves | dispatches
  · exact absurd (length_moves moves) added
  · exact dispatches

theorem options_moves (moves : Moves peers operation dealer later) :
    later.options = dealer.options := by
  induction moves with
  | refl => rfl
  | tail _ move ih =>
    rw [← ih]
    cases move with
    | aside aside => exact aside.options
    | turn found cause => rfl
    | retire closing => rfl

theorem options_run (peers : Peers) (options : Options) (operations : List Operation) :
    (run peers options operations).options = options := by
  induction operations using List.reverseRecOn with
  | nil => rfl
  | append_singleton operations operation ih =>
    rw [run_concat]
    rcases step_cases (linked_run peers options operations) peers operation with
      moves | ⟨call, dispatches⟩
    · exact (options_moves moves).trans ih
    · exact dispatches.options.trans ih

theorem before_moves (moves : Moves peers operation dealer later) {number : Nat}
    (found : later.calls[number]? = some call) :
    ∃ before, dealer.calls[number]? = some before ∧ call.origin = before.origin ∧
      (before.isCompleted = true → call.isCompleted = true) := by
  have bound := (List.getElem?_eq_some_iff.mp found).1
  rw [length_moves moves] at bound
  have there : dealer.calls[number]? = some dealer.calls[number] := List.getElem?_eq_getElem bound
  obtain ⟨after, located, same, done, -⟩ := persists_moves moves there
  obtain rfl : after = call := Option.some.inj (located.symm.trans found)
  exact ⟨_, there, same, done⟩

theorem opened_of_moves (moves : Moves peers operation dealer later) {number : Nat}
    (found : later.calls[number]? = some call) (opened : call.isCompleted = false) :
    ∃ before, dealer.calls[number]? = some before ∧ before.isCompleted = false ∧
      call.origin = before.origin := by
  obtain ⟨before, there, same, done⟩ := before_moves moves found
  refine ⟨before, there, ?_, same⟩
  by_contra completed
  simp [done (by simpa using completed)] at opened

end CallRouter.Dealer
