import CallRouter.Proofs.Dealer.Told

namespace CallRouter.Dealer

variable {peers : Peers} {operation : Operation} {dealer later : Dealer} {call : Call}
  {number index : Nat}

inductive Briefing (target : Call.Target) : List Message → Prop
  | invoked (details : Dict) (payload : Payload) :
      Briefing target
        [(Rpc.invocation target.invocation target.registration details payload).message]
  | interrupted (details : Dict) (payload : Payload) (options : Dict)
      (past : target.state ≠ .active) :
      Briefing target
        [(Rpc.invocation target.invocation target.registration details payload).message,
          (Rpc.interrupt target.invocation options).message]

section Briefing

variable {before after : Call.Target} {messages : List Message}

theorem agree_of_origin (same : before.origin = after.origin) :
    before.invocation = after.invocation ∧ before.registration = after.registration := by
  have registration := congrArg Call.Target.registration same
  have key := congrArg Call.Target.invocation same
  exact ⟨key, registration⟩

theorem Briefing.advance (briefing : Briefing before messages) (same : before.origin = after.origin)
    (less : before.state.rank ≤ after.state.rank) : Briefing after messages := by
  obtain ⟨invocation, registration⟩ := agree_of_origin same
  cases briefing with
  | invoked details payload =>
    rw [invocation, registration]
    exact .invoked details payload
  | interrupted details payload options past =>
    rw [invocation, registration]
    exact .interrupted details payload options fun active =>
      past (Call.Target.State.active_of_rank less active)

theorem Briefing.interrupt (briefing : Briefing before messages) (active : before.state = .active)
    (same : before.origin = after.origin) (past : after.state ≠ .active) (options : Dict) :
    Briefing after (messages ++ [(Rpc.interrupt before.invocation options).message]) := by
  obtain ⟨invocation, registration⟩ := agree_of_origin same
  cases briefing with
  | invoked details payload =>
    rw [invocation, registration]
    exact .interrupted details payload options past
  | interrupted _ _ _ already => exact absurd active already

end Briefing

structure Informed (dealer : Dealer) : Prop extends Awaiting dealer where
  distinct : dealer.issued.Nodup
  briefed : ∀ {number index : Nat} {call : Call} {target : Call.Target},
    dealer.calls[number]? = some call → call.targets[index]? = some target →
      Briefing target (dealer.told target.key)
  unknown : ∀ {key : Nat × Nat}, key ∉ dealer.issued → dealer.told key = []

theorem informed_initial (options : Options) : ({ options } : Dealer).Informed where
  toAwaiting := awaiting_initial options
  distinct := List.nodup_nil
  briefed := by simp
  unknown := fun _ => rfl

theorem target_before_turn {event : Call.Event} (found : dealer.calls[number]? = some call)
    {other : Nat} {holder : Call} {target : Call.Target}
    (held : (dealer.turn number call event).calls[other]? = some holder)
    (located : holder.targets[index]? = some target) :
    ∃ earlier before, dealer.calls[other]? = some earlier ∧
      earlier.targets[index]? = some before ∧ before.origin = target.origin ∧
      before.state.rank ≤ target.state.rank := by
  rw [getElem?_turn found] at held
  by_cases here : number = other
  · subst here
    obtain rfl : (call.turn event).call = holder := by simpa using held
    obtain ⟨before, there, same, less⟩ := Call.advances_turn call event index target located
    exact ⟨call, before, found, there, same, less⟩
  · rw [if_neg here] at held
    exact ⟨holder, target, held, located, rfl, Nat.le_refl _⟩

theorem briefed_turn {event : Call.Event} (informed : dealer.Informed)
    (found : dealer.calls[number]? = some call) (admits : call.Admits event) {other : Nat}
    {holder : Call} {target : Call.Target}
    (held : (dealer.turn number call event).calls[other]? = some holder)
    (located : holder.targets[index]? = some target) :
    Briefing target ((dealer.turn number call event).told target.key) := by
  obtain ⟨earlier, before, there, placed, same, less⟩ := target_before_turn found held located
  have key : before.key = target.key := by simpa using congrArg Call.Target.key same
  have briefing := informed.briefed there placed
  rw [key] at briefing
  rcases told_turn dealer number admits (keys_nodup informed.distinct found) target.key with
    silent | ⟨place, stopped, options, stop, equal, grown⟩
  · rw [silent]
    exact briefing.advance same less
  · -- Only the target itself has its key, and it was active up to now.
    obtain ⟨rfl, rfl⟩ := Prod.mk.inj
      (place_of_key informed.distinct there placed found stop.located (equal.trans key.symm))
    obtain rfl : earlier = call := Option.some.inj (there.symm.trans found)
    obtain rfl : before = stopped := Option.some.inj (placed.symm.trans stop.located)
    obtain ⟨after, reached, state⟩ := stop.stopped
    rw [getElem?_turn found, if_pos rfl] at held
    obtain rfl : (earlier.turn event).call = holder := Option.some.inj held
    obtain rfl : after = target := Option.some.inj (reached.symm.trans located)
    rw [grown]
    exact briefing.interrupt stop.active same (by simp [state]) options

theorem informed_move (informed : dealer.Informed) (move : Move peers operation dealer later) :
    later.Informed := by
  have awaiting := awaiting_move informed.toAwaiting move
  have issues := (issued_moves (.single move)).1
  have distinct : later.issued.Nodup := issues ▸ informed.distinct
  cases move with
  | aside aside =>
    exact
      { toAwaiting := awaiting
        distinct
        briefed := fun found located => by
          rw [told_aside aside]
          exact informed.briefed (aside.calls ▸ found) located
        unknown := fun absent => by
          rw [told_aside aside]
          exact informed.unknown (issues ▸ absent) }
  | @turn number call event found cause =>
    refine
      { toAwaiting := awaiting
        distinct
        briefed := fun held located => briefed_turn informed found cause.admits held located
        unknown := ?_ }
    intro key absent
    rw [issues] at absent
    rcases told_turn dealer number cause.admits (keys_nodup informed.distinct found) key with
      silent | ⟨place, stopped, options, stop, rfl, grown⟩
    · rw [silent]
      exact informed.unknown absent
    · exact absurd (mem_issued found stop.located) absent
  | retire closing =>
    exact
      { toAwaiting := awaiting
        distinct
        briefed := informed.briefed
        unknown := fun absent => informed.unknown (issues ▸ absent) }

theorem informed_moves (informed : dealer.Informed) (moves : Moves peers operation dealer later) :
    later.Informed := by
  induction moves with
  | refl => exact informed
  | tail _ move ih => exact informed_move ih move

theorem informed_dispatch (informed : dealer.Informed) (numbered : dealer.directory.Numbered)
    (fresh : DrawsFresh dealer later) (distinct : later.issued.Nodup)
    (valid : ∀ key ∈ later.issued, isValidId key.2 = true)
    (dispatches : Dispatches peers dealer operation call later) : later.Informed where
  toAwaiting := awaiting_dispatch informed.toAwaiting fresh dispatches
  distinct := distinct
  briefed := by
    intro number index holder target found located
    rcases dispatches.cases found with before | ⟨rfl, rfl⟩
    · have known := mem_issued before located
      rw [told_dispatch_other dispatches (dispatches.unissued distinct known)]
      exact informed.briefed before located
    · have listed := mem_issued found located
      have member := List.mem_of_getElem? located
      have new : target.key ∉ dealer.issued := fun old =>
        dispatches.unissued distinct old (List.mem_map_of_mem member)
      obtain ⟨details, payload, told⟩ := told_dispatch_self dispatches numbered
        (keys_nodup distinct found) member (valid target.key listed)
      rw [told, informed.unknown new]
      exact .invoked details payload
  unknown := by
    intro key absent
    rw [dispatches.issued, List.mem_append, not_or] at absent
    rw [told_dispatch_other dispatches absent.2]
    exact informed.unknown absent.1

theorem informed_step (informed : dealer.Informed) (numbered : dealer.directory.Numbered)
    (distinct : (dealer.step peers operation).issued.Nodup)
    (valid : ∀ key ∈ (dealer.step peers operation).issued, isValidId key.2 = true) :
    (dealer.step peers operation).Informed := by
  rcases step_cases informed.toLinked peers operation with moves | ⟨call, dispatches⟩
  · exact informed_moves informed moves
  · have fresh := drawsFresh_step informed.toLinked distinct
    exact informed_dispatch informed numbered fresh distinct valid dispatches

theorem informed_run {options : Options} {operations : List Operation}
    (once : (run peers options operations).DrawsOnce peers) :
    (run peers options operations).Informed := by
  induction operations using List.reverseRecOn with
  | nil => exact informed_initial options
  | append_singleton operations operation ih =>
    have drawn := drawn_run peers options (operations ++ [operation])
    have informed := ih once.of_prefix
    rw [run_concat] at once drawn ⊢
    exact informed_step informed (numbered_run peers options operations) (once.issued_nodup drawn)
      fun key member => once.isValidId drawn member

end CallRouter.Dealer
