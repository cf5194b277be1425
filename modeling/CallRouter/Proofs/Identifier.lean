import CallRouter.Identifier
import Mathlib.Data.Finset.Card
import Mathlib.Order.Interval.Finset.Nat

namespace CallRouter

theorem isValidId_iff (id : Nat) : isValidId id = true ↔ 1 ≤ id ∧ id ≤ maxId := by
  simp [isValidId]

theorem nextId_iterate {id : Nat} (valid : isValidId id = true) (count : Nat) :
    nextId^[count] id = (id - 1 + count) % maxId + 1 := by
  obtain ⟨positive, bound⟩ := (isValidId_iff id).mp valid
  induction count with
  | zero =>
    simp only [Function.iterate_zero, id_eq, maxId] at bound ⊢
    omega
  | succ count ih =>
    rw [Function.iterate_succ_apply', ih, nextId]
    by_cases wrapped : maxId ≤ (id - 1 + count) % maxId + 1
    · rw [if_pos wrapped]
      simp only [maxId] at wrapped ⊢
      omega
    · rw [if_neg wrapped]
      simp only [maxId] at wrapped ⊢
      omega

theorem nextId_reaches {id other : Nat} (valid : isValidId id = true)
    (sought : isValidId other = true) : ∃ count < maxId, nextId^[count] id = other := by
  obtain ⟨positive, bound⟩ := (isValidId_iff id).mp valid
  obtain ⟨positive', bound'⟩ := (isValidId_iff other).mp sought
  refine ⟨(other - 1 + maxId - (id - 1)) % maxId, Nat.mod_lt _ (by decide), ?_⟩
  rw [nextId_iterate valid]
  simp only [maxId] at bound bound' ⊢
  omega

namespace Allocator

theorem search_valid {inUse : Nat → Bool} {tries id : Nat} (valid : isValidId id = true) :
    isValidId (search inUse tries id) = true := by
  induction tries generalizing id with
  | zero => exact valid
  | succ tries ih =>
    rw [search]
    split
    · exact ih (isValidId_nextId id)
    · exact valid

theorem search_free {inUse : Nat → Bool} {tries id count : Nat} (bound : count < tries)
    (free : inUse (nextId^[count] id) = false) : inUse (search inUse tries id) = false := by
  induction tries generalizing id count with
  | zero => omega
  | succ tries ih =>
    rw [search]
    cases used : inUse id with
    | true =>
      cases count with
      | zero => simp [used] at free
      | succ count => exact ih (Nat.lt_of_succ_lt_succ bound) free
    | false => simpa using used

theorem search_eq {inUse : Nat → Bool} {id : Nat} (free : inUse id = false) (tries : Nat) :
    search inUse tries id = id := by
  cases tries with
  | zero => rfl
  | succ tries => simp [search, free]

theorem allocate_free {ids : Allocator} {inUse : Nat → Bool} (valid : isValidId ids.next = true)
    {id : Nat} (sought : isValidId id = true) (free : inUse id = false) :
    inUse (ids.allocate inUse).1 = false := by
  obtain ⟨count, bound, reached⟩ := nextId_reaches valid sought
  exact search_free bound (reached ▸ free)

end Allocator

theorem exists_free_id {used : List Nat} (room : used.length < maxId) :
    ∃ id, isValidId id = true ∧ id ∉ used := by
  by_contra none
  have all : Finset.Icc 1 maxId ⊆ used.toFinset := by
    intro id inside
    rw [Finset.mem_Icc] at inside
    by_contra absent
    exact none ⟨id, (isValidId_iff id).mpr inside, by simpa using absent⟩
  have count := Finset.card_le_card all
  have few := List.toFinset_card_le used
  rw [Nat.card_Icc] at count
  omega

end CallRouter
