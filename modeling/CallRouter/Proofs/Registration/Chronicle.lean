import CallRouter.Registration.Event
import Mathlib.Data.List.Basic

namespace CallRouter.Registration

variable {details : Details} {events later : List Event} {members : Nat}

def tally (kind : Event.Kind) (events : List Event) : Nat :=
  events.countP fun event => event.kind = kind

theorem tally_append (kind : Event.Kind) (events later : List Event) :
    tally kind (events ++ later) = tally kind events + tally kind later :=
  List.countP_append

def about (id : Nat) (events : List Event) : List Event :=
  events.filter fun event => event.entry = id

inductive Chronicle (details : Details) : List Event → Nat → Prop
  | opened (session : Nat) :
      Chronicle details
        [{ kind := .create, session, entry := details.id, details := some details },
          { kind := .register, session, entry := details.id }] 1
  | joined {events : List Event} {members : Nat} (chronicle : Chronicle details events members)
      (session : Nat) :
      Chronicle details (events ++ [{ kind := .register, session, entry := details.id }])
        (members + 1)
  | left {events : List Event} {members : Nat}
      (chronicle : Chronicle details events (members + 2)) (session : Nat) :
      Chronicle details (events ++ [{ kind := .unregister, session, entry := details.id }])
        (members + 1)

def Completed (id : Nat) (events : List Event) : Prop :=
  ∃ details prior session, details.id = id ∧ Chronicle details prior 1 ∧
    events = prior ++ [{ kind := .unregister, session, entry := id },
      { kind := .delete, session, entry := id }]

namespace Chronicle

variable (chronicle : Chronicle details events members)

include chronicle

theorem tally_register : tally .register events = tally .unregister events + members := by
  induction chronicle with
  | opened session => rfl
  | joined chronicle session ih =>
    rw [tally_append, tally_append, ih]
    simp [tally]
    omega
  | left chronicle session ih =>
    rw [tally_append, tally_append, ih]
    simp [tally]
    omega

theorem ahead_of_whole : tally .unregister events < tally .register events := by
  have balance := chronicle.tally_register
  have positive : 0 < members := by
    cases chronicle with
    | opened | joined | left => omega
  omega

theorem ahead {before after : List Event} (split : events = before ++ after)
    (opened : 2 ≤ before.length) : tally .unregister before < tally .register before := by
  induction chronicle generalizing after with
  | opened session =>
    have none : after = [] := by
      have length := congrArg List.length split
      rw [List.length_append, List.length_cons, List.length_singleton] at length
      exact List.length_eq_zero_iff.mp (by omega)
    rw [none, List.append_nil] at split
    exact split ▸ (Chronicle.opened session).ahead_of_whole
  | joined chronicle session ih =>
    rcases List.eq_nil_or_concat' after with rfl | ⟨between, last, rfl⟩
    · rw [List.append_nil] at split
      exact split ▸ (chronicle.joined session).ahead_of_whole
    · rw [← List.append_assoc] at split
      exact ih (List.append_inj_left' split rfl)
  | left chronicle session ih =>
    rcases List.eq_nil_or_concat' after with rfl | ⟨between, last, rfl⟩
    · rw [List.append_nil] at split
      exact split ▸ (chronicle.left session).ahead_of_whole
    · rw [← List.append_assoc] at split
      exact ih (List.append_inj_left' split rfl)

theorem created : ∃ session rest,
    events = { kind := .create, session, entry := details.id, details := some details } :: rest := by
  induction chronicle with
  | opened session => exact ⟨session, _, rfl⟩
  | joined chronicle session ih =>
    obtain ⟨first, rest, rfl⟩ := ih
    exact ⟨first, _, rfl⟩
  | left chronicle session ih =>
    obtain ⟨first, rest, rfl⟩ := ih
    exact ⟨first, _, rfl⟩

end Chronicle

def Paired (events : List Event) : Prop :=
  ∀ place event, events[place]? = some event →
    (event.kind = .create → events[place + 1]? =
      some { kind := .register, session := event.session, entry := event.entry }) ∧
    (event.kind = .delete → ∃ earlier, place = earlier + 1 ∧ events[earlier]? =
      some { kind := .unregister, session := event.session, entry := event.entry })

theorem Paired.append (paired : Paired events) (also : Paired later) : Paired (events ++ later) := by
  intro place event here
  by_cases early : place < events.length
  · rw [List.getElem?_append_left early] at here
    obtain ⟨opening, closing⟩ := paired place event here
    constructor
    · intro kind
      have next := opening kind
      rwa [List.getElem?_append_left (List.getElem?_eq_some_iff.mp next).1]
    · intro kind
      obtain ⟨earlier, rfl, before⟩ := closing kind
      exact ⟨earlier, rfl, by rwa [List.getElem?_append_left (by omega)]⟩
  · rw [List.getElem?_append_right (by omega)] at here
    obtain ⟨opening, closing⟩ := also (place - events.length) event here
    constructor
    · intro kind
      rw [List.getElem?_append_right (by omega), ← opening kind]
      congr 1
      omega
    · intro kind
      obtain ⟨earlier, same, before⟩ := closing kind
      refine ⟨events.length + earlier, by omega, ?_⟩
      rw [List.getElem?_append_right (by omega), ← before]
      congr 1
      omega

end CallRouter.Registration
