import CallRouter.Proofs.Dealer.Reach

namespace CallRouter

namespace Call

variable {call later : Call}

theorem advances_located (advances : call.Advances later) (same : later.origin = call.origin)
    {index : Nat} {target : Target} (located : call.targets[index]? = some target) :
    ∃ after, later.targets[index]? = some after ∧ target.origin = after.origin ∧
      target.state.rank ≤ after.state.rank := by
  have length : later.targets.length = call.targets.length := by
    simpa [origin] using congrArg (fun call => call.targets.length) same
  have bound : index < later.targets.length := by
    rw [length]
    exact (List.getElem?_eq_some_iff.mp located).1
  have there := List.getElem?_eq_getElem bound
  obtain ⟨before, found, equal, less⟩ := advances index _ there
  obtain rfl : before = target := Option.some.inj (found.symm.trans located)
  exact ⟨_, there, equal, less⟩

theorem Target.State.active_of_rank {before after : Target.State}
    (less : before.rank ≤ after.rank) (active : after = .active) : before = .active := by
  subst active
  cases before <;> simp [rank] at less ⊢

end Call

namespace Dealer

variable {peers : Peers} {operation : Operation} {dealer later : Dealer} {number index : Nat}

def Resting (dealer : Dealer) (number index : Nat) : Prop :=
  ∃ call target, dealer.calls[number]? = some call ∧ call.targets[index]? = some target ∧
    (call.isCompleted = true ∨ target.state ≠ .active)

theorem Resting.persists (resting : dealer.Resting number index)
    (persists : dealer.Persists later) : later.Resting number index := by
  obtain ⟨call, target, found, located, rests⟩ := resting
  obtain ⟨after, there, same, done, advances⟩ := persists found
  obtain ⟨further, placed, _, less⟩ := Call.advances_located advances same located
  refine ⟨after, further, there, placed, rests.imp done ?_⟩
  exact fun past active => past (Call.Target.State.active_of_rank less active)

theorem Resting.apart (resting : dealer.Resting number index) {other place : Nat} {call : Call}
    {target : Call.Target} (found : dealer.calls[other]? = some call)
    (opened : call.isCompleted = false) (located : call.targets[place]? = some target)
    (active : target.state = .active) : (other, place) ≠ (number, index) := by
  rintro ⟨⟩
  obtain ⟨holder, also, held, there, rests⟩ := resting
  obtain rfl : call = holder := Option.some.inj (found.symm.trans held)
  obtain rfl : target = also := Option.some.inj (located.symm.trans there)
  simp [opened, active] at rests

end Dealer

end CallRouter
