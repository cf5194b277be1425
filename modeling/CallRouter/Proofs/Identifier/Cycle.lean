import CallRouter.Proofs.Identifier

/-!
The loop that looks for an id, with as many steps as it takes. It ends whenever an id is free, with
the first one of the cycle, and an id comes round only after all others.
-/

namespace CallRouter

def idAfter (id places : Nat) : Nat := (id - 1 + places) % maxId + 1

theorem isValidId_idAfter (id places : Nat) : isValidId (idAfter id places) = true :=
  isValidId_requestIdAfter _

theorem nextId_iterate_eq_idAfter {id : Nat} (valid : isValidId id = true) (count : Nat) :
    nextId^[count] id = idAfter id count :=
  nextId_iterate valid count

theorem idAfter_zero {id : Nat} (valid : isValidId id = true) : idAfter id 0 = id :=
  (nextId_iterate_eq_idAfter valid 0).symm

theorem nextId_eq_idAfter {id : Nat} (valid : isValidId id = true) : nextId id = idAfter id 1 :=
  nextId_iterate_eq_idAfter valid 1

theorem idAfter_idAfter (id places more : Nat) :
    idAfter (idAfter id places) more = idAfter id (places + more) := by
  simp only [idAfter, Nat.add_sub_cancel, Nat.mod_add_mod, Nat.add_assoc]

theorem idAfter_round (id places : Nat) : idAfter id (places + maxId) = idAfter id places := by
  simp only [idAfter, ← Nat.add_assoc, Nat.add_mod_right]

theorem idAfter_ne {id places more : Nat} (ahead : places < more) (near : more < places + maxId) :
    idAfter id places ≠ idAfter id more := by
  intro same
  simp only [idAfter, maxId] at same near
  omega

namespace Allocator

variable {ids later : Allocator} {inUse : Nat → Bool} {calls : List (Nat → Bool)}
  {found : List Nat} {id steps passed start : Nat}

/--
The loop of a call, which ends after so many steps. Each step takes the next id and moves on, and
the first id that is not in use ends the loop.
-/
inductive Finds (inUse : Nat → Bool) : Allocator → Nat → Nat → Allocator → Prop
  | free {ids : Allocator} (unused : inUse ids.next = false) :
      Finds inUse ids 1 ids.next ⟨nextId ids.next⟩
  | taken {ids later : Allocator} {steps id : Nat} (used : inUse ids.next = true)
      (rest : Finds inUse ⟨nextId ids.next⟩ steps id later) : Finds inUse ids (steps + 1) id later

structure FirstFree (inUse : Nat → Bool) (start passed id : Nat) : Prop where
  place : id = idAfter start passed
  free : inUse id = false
  used : ∀ before < passed, inUse (idAfter start before) = true

namespace FirstFree

variable (first : FirstFree inUse start passed id)

include first

theorem valid : isValidId id = true :=
  first.place ▸ isValidId_idAfter start passed

theorem passed_lt : passed < maxId := by
  by_contra short
  obtain ⟨before, rfl⟩ := Nat.exists_eq_add_of_le' (Nat.le_of_not_lt short)
  -- One round earlier the loop was at the same id, which was in use.
  have used := first.used before (Nat.lt_add_of_pos_right (by decide))
  rw [← idAfter_round, ← first.place, first.free] at used
  cases used

end FirstFree

theorem finds_of_free {count : Nat} (free : inUse (nextId^[count] ids.next) = false) :
    ∃ steps id later, Finds inUse ids steps id later := by
  induction count generalizing ids with
  | zero => exact ⟨1, _, _, .free free⟩
  | succ count ih =>
    cases used : inUse ids.next with
    | false => exact ⟨1, _, _, .free used⟩
    | true =>
      obtain ⟨steps, id, later, finds⟩ := @ih ⟨nextId ids.next⟩ free
      exact ⟨steps + 1, id, later, .taken used finds⟩

namespace Finds

theorem firstFree (finds : Finds inUse ids steps id later) (valid : isValidId ids.next = true) :
    ∃ passed, steps = passed + 1 ∧ FirstFree inUse ids.next passed id := by
  induction finds with
  | free unused => exact ⟨0, rfl, (idAfter_zero valid).symm, unused, by simp⟩
  | @taken ids later steps id used rest ih =>
    obtain ⟨passed, rfl, first⟩ := ih (isValidId_nextId _)
    have onward (places : Nat) :
        idAfter (nextId ids.next) places = idAfter ids.next (places + 1) := by
      rw [nextId_eq_idAfter valid, idAfter_idAfter, Nat.add_comm]
    refine ⟨passed + 1, rfl, first.place.trans (onward passed), first.free, ?_⟩
    intro before early
    cases before with
    | zero => rwa [idAfter_zero valid]
    | succ before => exact onward before ▸ first.used before (Nat.lt_of_succ_lt_succ early)

theorem later_eq (finds : Finds inUse ids steps id later) : later = ⟨nextId id⟩ := by
  induction finds with
  | free => rfl
  | taken _ _ ih => exact ih

theorem valid_later (finds : Finds inUse ids steps id later) :
    isValidId later.next = true := by
  rw [finds.later_eq]
  exact isValidId_nextId id

theorem search_eq (finds : Finds inUse ids steps id later) {tries : Nat} (enough : steps ≤ tries) :
    search inUse tries ids.next = id := by
  induction finds generalizing tries with
  | free unused => exact Allocator.search_eq unused tries
  | taken used rest ih =>
    obtain ⟨tries, rfl⟩ := Nat.exists_eq_add_of_le' (Nat.le_of_add_left_le enough)
    rw [search, if_pos used]
    exact ih (Nat.le_of_succ_le_succ enough)

theorem allocate_eq (finds : Finds inUse ids steps id later) (valid : isValidId ids.next = true) :
    ids.allocate inUse = (id, later) := by
  obtain ⟨passed, rfl, first⟩ := finds.firstFree valid
  rw [allocate, finds.search_eq first.passed_lt, finds.later_eq]

end Finds

theorem exists_finds_iff (valid : isValidId ids.next = true) :
    (∃ steps id later, Finds inUse ids steps id later) ↔
      ∃ id, isValidId id = true ∧ inUse id = false := by
  constructor
  · rintro ⟨steps, id, later, finds⟩
    obtain ⟨passed, -, first⟩ := finds.firstFree valid
    exact ⟨id, first.valid, first.free⟩
  · rintro ⟨id, sought, free⟩
    obtain ⟨count, -, reached⟩ := nextId_reaches valid sought
    exact finds_of_free (reached ▸ free)

inductive Runs : Allocator → List (Nat → Bool) → List Nat → Nat → Allocator → Prop
  | nil (ids : Allocator) : Runs ids [] [] 0 ids
  | cons {inUse : Nat → Bool} {calls : List (Nat → Bool)} {ids between later : Allocator}
      {found : List Nat} {id steps more : Nat} (finds : Finds inUse ids steps id between)
      (rest : Runs between calls found more later) :
      Runs ids (inUse :: calls) (id :: found) (steps + more) later

def allocateAll (ids : Allocator) : List (Nat → Bool) → List Nat × Allocator
  | [] => ([], ids)
  | inUse :: calls =>
    let (id, between) := ids.allocate inUse
    let (found, later) := between.allocateAll calls
    (id :: found, later)

theorem allocateAll_append (ids : Allocator) (calls more : List (Nat → Bool)) :
    ids.allocateAll (calls ++ more) =
      ((ids.allocateAll calls).1 ++ ((ids.allocateAll calls).2.allocateAll more).1,
        ((ids.allocateAll calls).2.allocateAll more).2) := by
  induction calls generalizing ids with
  | nil => rfl
  | cons inUse calls ih => simp only [List.cons_append, allocateAll, ih]

inductive InTurn : Nat → List (Nat → Bool) → List Nat → Prop
  | nil (start : Nat) : InTurn start [] []
  | cons {inUse : Nat → Bool} {calls : List (Nat → Bool)} {found : List Nat}
      {start passed id : Nat} (first : FirstFree inUse start passed id)
      (rest : InTurn (idAfter id 1) calls found) : InTurn start (inUse :: calls) (id :: found)

theorem exists_runs (valid : isValidId ids.next = true)
    (room : ∀ inUse ∈ calls, ∃ id, isValidId id = true ∧ inUse id = false) :
    ∃ found steps later, Runs ids calls found steps later := by
  induction calls generalizing ids with
  | nil => exact ⟨[], 0, ids, .nil ids⟩
  | cons inUse calls ih =>
    obtain ⟨here, rest⟩ := List.forall_mem_cons.mp room
    obtain ⟨steps, id, between, finds⟩ := (exists_finds_iff valid).mpr here
    obtain ⟨found, more, later, runs⟩ := ih finds.valid_later rest
    exact ⟨id :: found, steps + more, later, .cons finds runs⟩

namespace Runs

variable (runs : Runs ids calls found steps later)

include runs

theorem valid_later (valid : isValidId ids.next = true) : isValidId later.next = true := by
  induction runs with
  | nil => exact valid
  | cons finds _ ih => exact ih finds.valid_later

theorem allocateAll_eq (valid : isValidId ids.next = true) :
    ids.allocateAll calls = (found, later) := by
  induction runs with
  | nil => rfl
  | cons finds _ ih => simp only [allocateAll, finds.allocate_eq valid, ih finds.valid_later]

theorem inTurn (valid : isValidId ids.next = true) : InTurn ids.next calls found := by
  induction runs with
  | nil ids => exact .nil ids.next
  | cons finds _ ih =>
    obtain ⟨passed, -, first⟩ := finds.firstFree valid
    refine .cons first ?_
    have next := ih finds.valid_later
    rwa [finds.later_eq, nextId_eq_idAfter first.valid] at next

theorem exists_place (valid : isValidId ids.next = true) (member : id ∈ found) :
    ∃ place < steps, id = idAfter ids.next place := by
  induction runs with
  | nil => cases member
  | @cons inUse calls ids between later found first steps more finds rest ih =>
    obtain ⟨passed, rfl, free⟩ := finds.firstFree valid
    cases member with
    | head => exact ⟨passed, by omega, free.place⟩
    | tail _ member =>
      obtain ⟨place, early, rfl⟩ := ih finds.valid_later member
      refine ⟨passed + 1 + place, by omega, ?_⟩
      rw [finds.later_eq, nextId_eq_idAfter free.valid, free.place, idAfter_idAfter,
        idAfter_idAfter, Nat.add_assoc]

theorem valid_found (valid : isValidId ids.next = true) (member : id ∈ found) :
    isValidId id = true := by
  obtain ⟨place, -, rfl⟩ := runs.exists_place valid member
  exact isValidId_idAfter _ _

theorem not_mem_of_next {last : Nat} (valid : isValidId last = true) (next : ids.next = nextId last)
    (few : steps < maxId) : last ∉ found := by
  intro member
  obtain ⟨place, early, again⟩ := runs.exists_place (next ▸ isValidId_nextId last) member
  rw [next, nextId_eq_idAfter valid, idAfter_idAfter] at again
  have apart : idAfter last 0 ≠ idAfter last (1 + place) := idAfter_ne (by omega) (by omega)
  exact apart ((idAfter_zero valid).trans again)

theorem nodup (valid : isValidId ids.next = true) (few : steps ≤ maxId) : found.Nodup := by
  induction runs with
  | nil => exact List.nodup_nil
  | @cons inUse calls ids between later found first steps more finds rest ih =>
    obtain ⟨passed, rfl, free⟩ := finds.firstFree valid
    refine List.nodup_cons.mpr ⟨?_, ih finds.valid_later (by omega)⟩
    refine rest.not_mem_of_next free.valid ?_ (by omega)
    rw [finds.later_eq]

end Runs

end Allocator

end CallRouter
