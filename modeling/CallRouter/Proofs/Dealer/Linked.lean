import CallRouter.Proofs.Dealer.Run

namespace CallRouter.Dealer

open Relation

structure Linked (dealer : Dealer) : Prop where
  tracked : ∀ {key : Nat × Nat} {number index : Nat},
    dealer.tracked.find? key = some (number, index) →
      ∃ call target, dealer.calls[number]? = some call ∧
        dealer.Tracks number call index target ∧ target.key = key
  cancelable : ∀ {key : Nat × Nat} {number : Nat}, dealer.cancelable.find? key = some number →
    ∃ call, dealer.calls[number]? = some call ∧ key = (call.caller, call.request) ∧
      call.isCompleted = false
  effects : ∀ {session : Nat} {message : Message} {number : Nat},
    .send session message (some number) ∈ dealer.effects → number < dealer.calls.length

variable {peers : Peers} {operation : Operation} {dealer later : Dealer}

theorem linked_initial (options : Options) : ({ options } : Dealer).Linked where
  tracked := by simp [Keyed.find?, Keyed.empty, Keyed.lookup]
  cancelable := by simp [Keyed.find?, Keyed.empty, Keyed.lookup]
  effects := by simp

theorem Cause.admits {number : Nat} {call : Call} {event : Call.Event}
    (cause : Cause peers dealer number call operation event) : call.Admits event := by
  cases cause with
  | progress tracks reads flag agreed opened => exact opened
  | result tracks reads flag => exact ⟨_, tracks.located, tracks.left⟩
  | failure tracks reads => exact ⟨_, tracks.located, tracks.left⟩
  | loss tracks => exact ⟨_, tracks.located, tracks.left⟩
  | cancellation reads chosen opened pending => exact ⟨opened, pending⟩
  | timeout opened overdue active idle => exact opened
  | abandonment opened => exact opened

theorem send_of_outgoing {about : Option Nat} {session : Nat} {rpc : Rpc} {effect : Effect}
    (member : effect ∈ outgoing about session rpc) :
    ∃ message, effect = .send session message about := by
  rw [outgoing_eq] at member
  split at member
  · exact ⟨_, List.mem_singleton.mp member⟩
  · cases member

theorem eq_of_outgoing {about other : Option Nat} {session receiver : Nat} {rpc : Rpc}
    {message : Message} (sent : .send receiver message other ∈ outgoing about session rpc) :
    receiver = session ∧ message = rpc.message ∧ other = about := by
  rw [outgoing_eq] at sent
  split at sent
  · exact Effect.send.inj (List.mem_singleton.mp sent)
  · cases sent

theorem kind_of_outgoing {about other : Option Nat} {session receiver : Nat} {rpc : Rpc}
    {message : Message} (sent : .send receiver message other ∈ outgoing about session rpc) :
    message.kind = rpc.kind := by
  rw [(eq_of_outgoing sent).2.1]
  rfl

theorem send_of_mailing {number : Nat} {sent : List (Nat × Rpc)} {effect : Effect}
    (member : effect ∈ mailing number sent) :
    ∃ session rpc message, (session, rpc) ∈ sent ∧
      effect = .send session message (some number) := by
  obtain ⟨⟨session, rpc⟩, among, inside⟩ := List.mem_flatMap.mp member
  obtain ⟨message, same⟩ := send_of_outgoing inside
  exact ⟨session, rpc, message, among, same⟩

theorem mem_mailing {number other : Nat} {sent : List (Nat × Rpc)} {session : Nat}
    {message : Message} (member : .send session message (some other) ∈ mailing number sent) :
    other = number := by
  obtain ⟨_, _, _, _, same⟩ := send_of_mailing member
  exact Option.some.inj (Effect.send.inj same).2.2

theorem getElem?_turn {number : Nat} {call : Call} {event : Call.Event}
    (found : dealer.calls[number]? = some call) (other : Nat) :
    (dealer.turn number call event).calls[other]? =
      if number = other then some (call.turn event).call else dealer.calls[other]? := by
  have bound := (List.getElem?_eq_some_iff.mp found).1
  by_cases here : number = other
  · subst here
    simp [turn, bound]
  · simp [turn, here]

theorem linked_turn {number : Nat} {call : Call} (linked : dealer.Linked)
    (found : dealer.calls[number]? = some call) (event : Call.Event) :
    (dealer.turn number call event).Linked where
  tracked := by
    intro key other index located
    obtain ⟨before, kept⟩ := find?_releasing.mp located
    obtain ⟨holder, target, held, tracks, same⟩ := linked.tracked before
    by_cases here : number = other
    · subst here
      obtain rfl : call = holder := Option.some.inj (found.symm.trans held)
      obtain ⟨after, there, equal, left⟩ :=
        Call.turn_target event tracks.located tracks.left (same ▸ kept)
      refine ⟨(call.turn event).call, after, ?_, ⟨?_, there, left⟩, equal.trans same⟩
      · rw [getElem?_turn found, if_pos rfl]
      · rw [equal, same]
        exact located
    · refine ⟨holder, target, ?_, ⟨?_, tracks.located, tracks.left⟩, same⟩
      · rw [getElem?_turn found, if_neg here, held]
      · rw [same]
        exact located
  cancelable := by
    intro key other located
    -- Only a turn that ends the call takes its request out, unless that is used for a later call.
    have kept : dealer.cancelable.find? key = some other ∧
        ((call.turn event).call.isCompleted = true → call.isCompleted = false →
          key = (call.caller, call.request) → other ≠ number) := by
      simp only [turn] at located
      split at located
      · obtain ⟨before, gone⟩ := find?_forgetting.mp located
        exact ⟨before, fun _ _ => gone⟩
      · rename_i unchanged
        refine ⟨located, fun ended opened => ?_⟩
        simp [ended, opened] at unchanged
    obtain ⟨holder, held, same, opened⟩ := linked.cancelable kept.1
    by_cases here : number = other
    · subst here
      obtain rfl : call = holder := Option.some.inj (found.symm.trans held)
      refine ⟨(call.turn event).call, ?_, ?_, ?_⟩
      · rw [getElem?_turn found, if_pos rfl]
      · simpa using same
      · cases ended : (call.turn event).call.isCompleted with
        | false => rfl
        | true => exact absurd rfl (kept.2 ended opened same)
    · refine ⟨holder, ?_, same, opened⟩
      rw [getElem?_turn found, if_neg here, held]
  effects := by
    intro session message other member
    have bound := (List.getElem?_eq_some_iff.mp found).1
    simp only [turn, List.length_set] at member ⊢
    rcases List.mem_append.mp member with before | new
    · exact linked.effects before
    · exact mem_mailing new ▸ bound

theorem linked_aside (linked : dealer.Linked) (aside : dealer.Aside later) : later.Linked where
  tracked := by
    intro key number index located
    rw [aside.tracked] at located
    obtain ⟨call, target, held, tracks, same⟩ := linked.tracked located
    refine ⟨call, target, aside.calls ▸ held, ⟨?_, tracks.located, tracks.left⟩, same⟩
    exact aside.tracked ▸ tracks.tracked
  cancelable := by
    intro key number located
    rw [aside.cancelable] at located
    rw [aside.calls]
    exact linked.cancelable located
  effects := by
    intro session message number member
    obtain ⟨new, grown, silent⟩ := aside.effects
    rw [grown] at member
    rw [aside.calls]
    rcases List.mem_append.mp member with before | fresh
    · exact linked.effects before
    · exact absurd (silent session message (some number) fresh).1 (by simp)

theorem linked_retire (linked : dealer.Linked) (session : Nat) :
    { dealer with cancelable := dealer.cancelable.filter fun key _ => key.1 ≠ session }.Linked where
  tracked := by
    intro key number index located
    obtain ⟨call, target, held, ⟨tracked, there, left⟩, same⟩ := linked.tracked located
    exact ⟨call, target, held, ⟨tracked, there, left⟩, same⟩
  cancelable := fun located => linked.cancelable ((Keyed.find?_filter ..).mp located).1
  effects := linked.effects

theorem linked_move (linked : dealer.Linked) (move : Move peers operation dealer later) :
    later.Linked := by
  cases move with
  | aside aside => exact linked_aside linked aside
  | turn found cause => exact linked_turn linked found _
  | retire closing => exact linked_retire linked _

theorem linked_moves (linked : dealer.Linked)
    (moves : ReflTransGen (Move peers operation) dealer later) : later.Linked := by
  induction moves with
  | refl => exact linked
  | tail _ move ih => exact linked_move ih move

end CallRouter.Dealer
