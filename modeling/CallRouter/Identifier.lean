namespace CallRouter

def maxId : Nat := 72057594037927935

def isValidId (id : Nat) : Bool := 1 ≤ id && id ≤ maxId

def nextId (id : Nat) : Nat := if maxId ≤ id then 1 else id + 1

def requestIdAfter (count : Nat) : Nat := count % maxId + 1

theorem isValidId_nextId (id : Nat) : isValidId (nextId id) := by
  unfold nextId
  split
  · decide
  · simp only [isValidId, Bool.and_eq_true, decide_eq_true_eq]
    omega

theorem isValidId_requestIdAfter (count : Nat) : isValidId (requestIdAfter count) := by
  have below : count % maxId < maxId := Nat.mod_lt _ (by decide)
  simp only [isValidId, requestIdAfter, Bool.and_eq_true]
  exact ⟨decide_eq_true (Nat.le_add_left _ _), decide_eq_true below⟩

structure Allocator where
  next : Nat := 1
  deriving DecidableEq, Repr, Inhabited

namespace Allocator

/-- The first id from the given one on that is not in use, within the given number of tries. -/
def search (inUse : Nat → Bool) : Nat → Nat → Nat
  | 0, id => id
  | tries + 1, id => if inUse id then search inUse tries (nextId id) else id

/-- The next id that is not in use. As many tries as there are ids find one if there is one. -/
def allocate (ids : Allocator) (inUse : Nat → Bool) : Nat × Allocator :=
  let id := search inUse maxId ids.next
  (id, ⟨nextId id⟩)

end Allocator

end CallRouter
