import CallRouter.Proofs.Dealer.Linked
import CallRouter.Proofs.Dealer.Procedures

/-!
How a session closes: it loses its registrations, then what it served, and then the calls that it
made. Nothing is said of the order in which these are taken up, other than that all of them are.
-/

namespace CallRouter.Dealer

open Relation Registration

variable {dealer later : Dealer} {session : Nat}

theorem aside_publish {statistics : Statistics} (dealer : Dealer)
    (directory : Registration.Directory) (more : dealer.statistics.Extends statistics)
    (events : List Registration.Event) :
    dealer.Aside { dealer with
      directory, statistics, effects := dealer.effects ++ events.map .publish } :=
  ⟨rfl, rfl, rfl, rfl, rfl, more, events.map .publish, rfl, by simp⟩

theorem loseTarget_tracked (dealer : Dealer) (tracked : Keyed (Nat × Nat) (Nat × Nat))
    (number index : Nat) :
    ({ dealer with tracked }).loseTarget number index =
      { dealer.loseTarget number index with tracked } := by
  unfold loseTarget
  cases found : dealer.calls[number]? with
  | none => rfl
  | some call =>
    cases finished : call.finish? index .error with
    | none => simp [finished]
    | some settled =>
      obtain ⟨remaining, settled⟩ := settled
      simp only [finished, setCall]
      split
      · cases done : settled.isCompleted with
        | true => simp [conclude?_of_completed done]
        | false => simp [conclude?_of_open done, concluded]
      · rfl

def loseTargets (dealer : Dealer) (places : List (Nat × Nat)) : Dealer :=
  places.foldl (fun dealer (number, index) => dealer.loseTarget number index) dealer

theorem loseTargets_cons (dealer : Dealer) (number index : Nat) (places : List (Nat × Nat)) :
    dealer.loseTargets ((number, index) :: places) =
      (dealer.loseTarget number index).loseTargets places := rfl

theorem loseTargets_tracked (places : List (Nat × Nat)) (dealer : Dealer)
    (tracked : Keyed (Nat × Nat) (Nat × Nat)) :
    ({ dealer with tracked }).loseTargets places = { dealer.loseTargets places with tracked } := by
  induction places generalizing dealer with
  | nil => rfl
  | cons place places ih =>
    obtain ⟨number, index⟩ := place
    rw [loseTargets_cons, loseTargets_cons, loseTarget_tracked, ih]

inductive Course (allowed : Dealer → Nat → Call → Call.Event → Prop) :
    Dealer → List (Nat × Rpc) → Dealer → Prop
  | rest (dealer : Dealer) : Course allowed dealer [] dealer
  | turn {dealer later : Dealer} {number : Nat} {call : Call} {event : Call.Event}
      {sent : List (Nat × Rpc)} (found : dealer.calls[number]? = some call)
      (allows : allowed dealer number call event)
      (course : Course allowed (dealer.turn number call event) sent later) :
      Course allowed dealer ((call.turn event).sent ++ sent) later

inductive Loss (session : Nat) (dealer : Dealer) : Dealer → Prop
  | lose {number index : Nat} {call : Call} {target : Call.Target}
      (found : dealer.calls[number]? = some call)
      (tracks : dealer.Tracks number call index target) (served : target.callee = session) :
      Loss session dealer (dealer.turn number call (.loss index))

inductive Abandonment (session : Nat) (dealer : Dealer) : Dealer → Prop
  | abandon {number : Nat} {call : Call} (found : dealer.calls[number]? = some call)
      (opened : call.isCompleted = false) (made : call.caller = session) :
      Abandonment session dealer (dealer.turn number call .abandonment)

def lossAttempts : Dealer → List (Nat × Nat) → List (Nat × Rpc)
  | _, [] => []
  | dealer, (number, index) :: places =>
    match dealer.calls[number]? with
    | none => lossAttempts dealer places
    | some call =>
      (call.turn (.loss index)).sent ++ lossAttempts (dealer.turn number call (.loss index)) places

def abandonmentAttempts : Dealer → List Nat → List (Nat × Rpc)
  | _, [] => []
  | dealer, number :: numbers =>
    match dealer.calls[number]? with
    | none => abandonmentAttempts dealer numbers
    | some call =>
      (if call.isCompleted then [] else (call.turn .abandonment).sent) ++
        abandonmentAttempts (dealer.loseCall number) numbers

def Deserts (session : Nat) (dealer : Dealer) (number : Nat) (call : Call) (event : Call.Event) :
    Prop :=
  ∃ index target, dealer.Tracks number call index target ∧ target.callee = session ∧
    event = .loss index

def Abandons (session : Nat) (_ : Dealer) (_ : Nat) (call : Call) (event : Call.Event) : Prop :=
  call.isCompleted = false ∧ call.caller = session ∧ event = .abandonment

theorem losses_of_course {sent : List (Nat × Rpc)}
    (course : Course (Deserts session) dealer sent later) :
    ReflTransGen (Loss session) dealer later := by
  induction course with
  | rest dealer => exact .refl
  | turn found allows course ih =>
    obtain ⟨index, target, tracks, served, rfl⟩ := allows
    exact .head (.lose found tracks served) ih

theorem abandonments_of_course {sent : List (Nat × Rpc)}
    (course : Course (Abandons session) dealer sent later) :
    ReflTransGen (Abandonment session) dealer later := by
  induction course with
  | rest dealer => exact .refl
  | turn found allows course ih =>
    obtain ⟨opened, made, rfl⟩ := allows
    exact .head (.abandon found opened made) ih

theorem loseTargets_course (linked : dealer.Linked)
    (served : List ((Nat × Nat) × (Nat × Nat)))
    (located : ∀ entry ∈ served,
      dealer.tracked.find? entry.1 = some entry.2 ∧ entry.1.1 = session)
    (apart : (served.map (·.1)).Nodup) :
    Course (Deserts session) dealer (lossAttempts dealer (served.map (·.2)))
      { dealer.loseTargets (served.map (·.2)) with
        tracked := releasing dealer.tracked (served.map (·.1)) } := by
  -- Each loss is a turn that releases its own invocation, so the others are still tracked after it.
  induction served generalizing dealer with
  | nil =>
    rw [List.map_nil, List.map_nil, releasing_nil]
    exact .rest dealer
  | cons entry served ih =>
    obtain ⟨key, number, index⟩ := entry
    obtain ⟨tracked, rfl⟩ := located (key, number, index) (by simp)
    obtain ⟨call, target, found, tracks, rfl⟩ := linked.tracked tracked
    have lost := loseTarget_eq found tracks.located tracks.left
    rw [untrack_eq, loseTarget_tracked] at lost
    have turned : (dealer.turn number call (.loss index)).tracked =
        releasing dealer.tracked [target.key] := by rw [← lost]
    simp only [List.map_cons, List.nodup_cons] at apart
    simp only [List.map_cons, lossAttempts, found]
    refine .turn found ⟨index, target, tracks, rfl, rfl⟩ ?_
    have rest := ih (linked_turn linked found (.loss index)) ?_ apart.2
    · rw [turned, releasing_releasing] at rest
      rw [← lost] at rest ⊢
      rw [loseTargets_tracked] at rest
      exact rest
    · intro other member
      obtain ⟨before, owned⟩ := located other (by simp [member])
      refine ⟨?_, owned⟩
      rw [turned, find?_releasing]
      refine ⟨before, ?_⟩
      intro same
      apply apart.1
      rw [List.mem_singleton] at same
      exact List.mem_map.mpr ⟨other, member, same⟩

theorem loseCalls_course (numbers : List Nat)
    (retired : ∀ request, dealer.cancelable.find? (session, request) = none)
    (owned : ∀ number ∈ numbers, ∃ call, dealer.calls[number]? = some call ∧
      call.caller = session) :
    Course (Abandons session) dealer (abandonmentAttempts dealer numbers)
      (numbers.foldl loseCall dealer) := by
  induction numbers generalizing dealer with
  | nil => exact .rest dealer
  | cons number numbers ih =>
    obtain ⟨call, found, made⟩ := owned number (by simp)
    simp only [List.foldl_cons, abandonmentAttempts, found]
    cases done : call.isCompleted with
    | true =>
      have kept : dealer.loseCall number = dealer := by
        simp [loseCall, found, Call.complete?, done]
      rw [kept]
      exact ih retired fun other member => owned other (by simp [member])
    | false =>
      rw [loseCall_eq found done (made ▸ retired call.request)]
      refine .turn found ⟨done, made, rfl⟩ (ih ?_ ?_)
      · intro request
        rw [← Option.not_isSome_iff_eq_none, Option.isSome_iff_exists]
        rintro ⟨other, located⟩
        simp only [turn] at located
        split at located
        · have before := (find?_forgetting.mp located).1
          simp [retired] at before
        · simp [retired] at located
      · intro other member
        obtain ⟨holder, held, same⟩ := owned other (by simp [member])
        rw [getElem?_turn found]
        by_cases here : number = other
        · exact ⟨(call.turn .abandonment).call, by simp [here], by simpa using made⟩
        · exact ⟨holder, by simp [here, held], same⟩

def madeBy (dealer : Dealer) (session : Nat) : List Nat :=
  dealer.tracked.values.filterMap fun (number, _) =>
    match dealer.calls[number]? with
    | some call => if call.caller = session then some number else none
    | none => none

theorem mem_madeBy {number : Nat} : number ∈ dealer.madeBy session ↔
    ∃ key index call, dealer.tracked.find? key = some (number, index) ∧
      dealer.calls[number]? = some call ∧ call.caller = session := by
  simp only [madeBy, Keyed.values, List.mem_filterMap, List.mem_map]
  constructor
  · rintro ⟨place, ⟨entry, member, rfl⟩, chosen⟩
    obtain ⟨key, holder, index⟩ := entry
    cases found : dealer.calls[holder]? with
    | none => simp [found] at chosen
    | some call =>
      simp only [found, Option.ite_none_right_eq_some, Option.some.injEq] at chosen
      obtain ⟨made, rfl⟩ := chosen
      exact ⟨key, index, call, (Keyed.find?_eq_some_iff _).mpr member, found, made⟩
  · rintro ⟨key, index, call, tracked, found, made⟩
    exact ⟨(number, index), ⟨_, (Keyed.find?_eq_some_iff _).mp tracked, rfl⟩, by simp [found, made]⟩

structure Order (dealer : Dealer) (session : Nat) where
  owned : List Nat
  served : List ((Nat × Nat) × (Nat × Nat))
  ownedAll : owned.Perm (dealer.directory.ownedBy session)
  servedAll : served.Perm (dealer.tracked.filter fun key _ => key.1 = session).entries

namespace Order

def listed (dealer : Dealer) (session : Nat) : Order dealer session where
  owned := dealer.directory.ownedBy session
  served := (dealer.tracked.filter fun key _ => key.1 = session).entries
  ownedAll := .refl _
  servedAll := .refl _

variable (order : Order dealer session)

def left : Dealer :=
  let closed := Directory.unregisterAll order.owned dealer.directory
  { dealer with directory := closed.2, effects := dealer.effects ++ closed.1.map .publish }

def deserted : Dealer :=
  { order.left.loseTargets (order.served.map (·.2)) with
    tracked := dealer.tracked.filter fun key _ => key.1 ≠ session }

def severed : Dealer :=
  { order.deserted with
    cancelable := order.deserted.cancelable.filter fun key _ => key.1 ≠ session }

theorem aside : dealer.Aside order.left :=
  aside_publish dealer _ (Statistics.extends_refl _) _

theorem served_located {entry : (Nat × Nat) × (Nat × Nat)} (member : entry ∈ order.served) :
    dealer.tracked.find? entry.1 = some entry.2 ∧ entry.1.1 = session := by
  obtain ⟨key, value⟩ := entry
  have located := (Keyed.mem_filter _ _ _ _).mp (order.servedAll.mem_iff.mp member)
  exact ⟨(Keyed.find?_eq_some_iff _).mpr located.1, by simpa using located.2⟩

theorem served_apart : (order.served.map (·.1)).Nodup :=
  (order.servedAll.map _).nodup_iff.mpr (dealer.tracked.filter fun key _ => key.1 = session).distinct

theorem filter_eq_releasing : (dealer.tracked.filter fun key _ => key.1 ≠ session) =
    releasing dealer.tracked (order.served.map (·.1)) := by
  apply Keyed.filter_congr
  intro key value located
  have listed : key ∈ order.served.map (·.1) ↔ key.1 = session := by
    constructor
    · intro member
      obtain ⟨entry, inside, rfl⟩ := List.mem_map.mp member
      exact (order.served_located inside).2
    · intro served
      have inside := (Keyed.mem_filter dealer.tracked (fun key _ => key.1 = session) key value).mpr
        ⟨(Keyed.find?_eq_some_iff _).mp located, by simpa using served⟩
      exact List.mem_map_of_mem (f := (·.1)) (order.servedAll.mem_iff.mpr inside)
  simp [listed]

theorem desertion (linked : dealer.Linked) :
    Course (Deserts session) order.left (lossAttempts order.left (order.served.map (·.2)))
      order.deserted := by
  rw [deserted, filter_eq_releasing]
  exact loseTargets_course (linked_aside linked order.aside) order.served
    (fun _ member => order.served_located member) order.served_apart

theorem losses (linked : dealer.Linked) :
    ReflTransGen (Loss session) order.left order.deserted :=
  losses_of_course (order.desertion linked)

theorem severed_retired (request : Nat) :
    order.severed.cancelable.find? (session, request) = none := by
  rw [← Option.not_isSome_iff_eq_none, Option.isSome_iff_exists]
  rintro ⟨number, located⟩
  have kept := ((Keyed.find?_filter _ _ _ _).mp located).2
  simp at kept

theorem abandonment {made : List Nat} (all : made.Perm (order.severed.madeBy session)) :
    Course (Abandons session) order.severed (abandonmentAttempts order.severed made)
      (made.foldl loseCall order.severed) := by
  apply loseCalls_course _ order.severed_retired
  intro number member
  obtain ⟨key, index, call, _, found, owned⟩ := mem_madeBy.mp (all.mem_iff.mp member)
  exact ⟨call, found, owned⟩

theorem abandonments {made : List Nat} (all : made.Perm (order.severed.madeBy session)) :
    ReflTransGen (Abandonment session) order.severed (made.foldl loseCall order.severed) :=
  abandonments_of_course (order.abandonment all)

end Order

/-- A session closes, and what it held is taken up in any order. -/
inductive Closes (dealer : Dealer) (session : Nat) : Dealer → Prop
  | close (order : Order dealer session) {made : List Nat}
      (all : made.Perm (order.severed.madeBy session)) :
      Closes dealer session (made.foldl loseCall order.severed)

theorem closeSession_eq (dealer : Dealer) (session : Nat) :
    dealer.closeSession session =
      ((Order.listed dealer session).severed.madeBy session).foldl loseCall
        (Order.listed dealer session).severed := by
  have aside := loseTargets_tracked (dealer.tracked.filter fun key _ => key.1 = session).values
    (Order.listed dealer session).left (dealer.tracked.filter fun key _ => key.1 ≠ session)
  have same : (Order.listed dealer session).deserted =
      ({ (Order.listed dealer session).left with
        tracked := dealer.tracked.filter fun key _ => key.1 ≠ session }).loseTargets
          (dealer.tracked.filter fun key _ => key.1 = session).values := by
    rw [aside]
    rfl
  rw [Order.severed, same]
  simp only [closeSession, publish_eq]
  rfl

theorem closes_closeSession (dealer : Dealer) (session : Nat) :
    dealer.Closes session (dealer.closeSession session) := by
  rw [closeSession_eq]
  exact .close _ (.refl _)

end CallRouter.Dealer
