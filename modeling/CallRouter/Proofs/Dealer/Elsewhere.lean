import CallRouter.Proofs.Dealer.Replies

namespace CallRouter

def Effect.elsewhere? (session : Nat) (about : Option Nat) : Effect → Option (Nat × Message)
  | .send receiver message call =>
    if call = about && receiver ≠ session then some (receiver, message) else none
  | .publish _ => none

namespace Dealer

variable {dealer middle later : Dealer} {session : Nat} {holder : Call}

def elsewhere (session : Nat) (about : Option Nat) (effects : List Effect) :
    List (Nat × Message) :=
  effects.filterMap (Effect.elsewhere? session about)

@[simp] theorem elsewhere_nil (about : Option Nat) : elsewhere session about [] = [] := rfl

theorem elsewhere_append (about : Option Nat) (effects more : List Effect) :
    elsewhere session about (effects ++ more) =
      elsewhere session about effects ++ elsewhere session about more :=
  List.filterMap_append

theorem elsewhere_events (about : Option Nat) (events : List Registration.Event) :
    elsewhere session about (events.map .publish) = [] := by
  simp [elsewhere, Effect.elsewhere?]

def abroad (session : Nat) (sent : List (Nat × Rpc)) : List (Nat × Message) :=
  (posted sent).filter fun message => message.1 ≠ session

theorem elsewhere_mailing (number : Nat) (about : Option Nat) (sent : List (Nat × Rpc)) :
    elsewhere session about (mailing number sent) =
      if about = some number then abroad session sent else [] := by
  induction sent with
  | nil => simp [elsewhere, abroad, posted]
  | cons message sent ih =>
    obtain ⟨receiver, rpc⟩ := message
    rw [mailing_cons, elsewhere_append, ih, outgoing_eq]
    by_cases here : about = some number
    · cases sendable : rpc.isSendable <;> by_cases home : receiver = session <;>
        simp [elsewhere, Effect.elsewhere?, abroad, posted, here, sendable, home]
    · have other : some number ≠ about := fun same => here same.symm
      cases sendable : rpc.isSendable <;> simp [elsewhere, Effect.elsewhere?, here, other]

structure Changes (session : Nat) (change : Call → Call → List (Nat × Message) → Prop)
    (dealer later : Dealer) (new : List Effect) : Prop where
  effects : later.effects = dealer.effects ++ new
  length : later.calls.length = dealer.calls.length
  calls : ∀ {number : Nat} {call : Call}, dealer.calls[number]? = some call →
    ∃ after, later.calls[number]? = some after ∧
      change call after (elsewhere session (some number) new)
  silent : ∀ {about : Option Nat}, (∀ number ∈ about, dealer.calls.length ≤ number) →
    elsewhere session about new = []

theorem changes_refl {change : Call → Call → List (Nat × Message) → Prop}
    (same : ∀ call ∈ dealer.calls, change call call []) :
    Changes session change dealer dealer [] where
  effects := by simp
  length := rfl
  calls := fun found => ⟨_, found, same _ (List.mem_of_getElem? found)⟩
  silent := fun _ => rfl

theorem changes_turn {change : Call → Call → List (Nat × Message) → Prop} {new : List Effect}
    {number : Nat} {event : Call.Event} (changes : Changes session change dealer middle new)
    (found : middle.calls[number]? = some holder)
    (next : ∀ {call sent}, call ∈ dealer.calls → change call holder sent →
      change call (holder.turn event).call (sent ++ abroad session (holder.turn event).sent)) :
    Changes session change dealer (middle.turn number holder event)
      (new ++ mailing number (holder.turn event).sent) where
  effects := by
    simp [turn, changes.effects]
  length := by
    simp [turn, changes.length]
  calls := by
    intro other call before
    obtain ⟨between, there, changed⟩ := changes.calls before
    rw [getElem?_turn found, elsewhere_append, elsewhere_mailing]
    by_cases here : number = other
    · subst here
      obtain rfl : holder = between := Option.some.inj (found.symm.trans there)
      refine ⟨_, if_pos rfl, ?_⟩
      rw [if_pos rfl]
      exact next (List.mem_of_getElem? before) changed
    · have apart : some other ≠ some number := fun same => here (Option.some.inj same).symm
      refine ⟨between, by rw [if_neg here, there], ?_⟩
      rwa [if_neg apart, List.append_nil]
  silent := by
    intro about unknown
    rw [elsewhere_append, elsewhere_mailing, changes.silent unknown, if_neg, List.append_nil]
    rintro rfl
    have bound := (List.getElem?_eq_some_iff.mp found).1
    rw [changes.length] at bound
    exact absurd (unknown number rfl) (by omega)

theorem Changes.trans {change next whole : Call → Call → List (Nat × Message) → Prop}
    {new more : List Effect} (first : Changes session change dealer middle new)
    (second : Changes session next middle later more)
    (both : ∀ {number : Nat} {call holder after : Call} {sent rest},
      middle.calls[number]? = some holder → later.calls[number]? = some after →
        change call holder sent → next holder after rest → whole call after (sent ++ rest)) :
    Changes session whole dealer later (new ++ more) where
  effects := by
    rw [second.effects, first.effects, List.append_assoc]
  length := second.length.trans first.length
  calls := by
    intro number call found
    obtain ⟨holder, between, changed⟩ := first.calls found
    obtain ⟨after, there, passed⟩ := second.calls between
    rw [elsewhere_append]
    exact ⟨after, there, both between there changed passed⟩
  silent := by
    intro about unknown
    rw [elsewhere_append, first.silent unknown, second.silent (first.length ▸ unknown)]
    rfl

end Dealer

end CallRouter
