import CallRouter.Proofs.Registration.Reachable

namespace CallRouter.Registration.Directory

variable {directory : Directory} {count : Nat}

def drawn (directory : Directory) : Request → Nat
  | .register now session pattern invoke options =>
    match directory.register now session pattern invoke options with
    | .ok _ => if (directory.entryOf? pattern).isSome then 1 else 2
    | .error _ => 0
  | _ => 0

structure InOrder (directory : Directory) (count : Nat) : Prop where
  next : directory.ids.next = count + 1
  used : ∀ id ∈ directory.usedIds, id ≤ count

namespace InOrder

theorem empty : InOrder {} 0 where
  next := rfl
  used id member := by cases member

variable (inOrder : directory.InOrder count)

include inOrder

theorem unused : count + 1 ∉ directory.usedIds := by
  intro member
  have := inOrder.used _ member
  omega

theorem allocate_eq : directory.allocate.1 = count + 1 := by
  have free : directory.isInUse directory.ids.next = false := by
    rw [Bool.eq_false_iff, ne_eq, isInUse_iff, inOrder.next]
    exact inOrder.unused
  exact (Allocator.search_eq free maxId).trans inOrder.next

theorem next_allocate (few : count + 1 < maxId) :
    directory.allocate.2.ids.next = count + 2 := by
  have next : directory.allocate.2.ids.next = nextId directory.allocate.1 := rfl
  rw [next, inOrder.allocate_eq, nextId, if_neg (by omega)]

theorem join (few : count + 1 < maxId) (session : Nat) (entry : Entry) (options : Dict) :
    (directory.join session entry options).2.InOrder (count + 1) where
  next := inOrder.next_allocate few
  used id member := by
    have unused := inOrder.unused
    rw [← inOrder.allocate_eq] at unused
    rw [usedIds_join unused, List.mem_append, List.mem_singleton, inOrder.allocate_eq] at member
    rcases member with before | rfl
    · have := inOrder.used id before
      omega
    · omega

theorem opened (few : count + 1 < maxId) (now : Time) (pattern : Pattern)
    (invoke : InvocationPolicy) :
    (directory.opened (directory.opening now pattern invoke)).InOrder (count + 1) where
  next := inOrder.next_allocate few
  used id member := by
    have unused := inOrder.unused
    rw [← inOrder.allocate_eq] at unused
    rw [(usedIds_opened unused).mem_iff, List.mem_append, List.mem_singleton,
      inOrder.allocate_eq] at member
    rcases member with before | rfl
    · have := inOrder.used id before
      omega
    · omega

theorem unregister {id : Nat} {registration : Registration} {events : List Event}
    {later : Directory} (done : directory.unregister id = .ok (registration, events, later)) :
    later.InOrder count := by
  obtain ⟨-, rfl⟩ := unregister_eq_ok done
  have used := usedIds_deprived directory id registration
  split
  · exact ⟨inOrder.next, fun id member =>
      inOrder.used id (used.subset ((usedIds_drop _ _ _).subset member))⟩
  · exact ⟨inOrder.next, fun id member => inOrder.used id (used.subset member)⟩

theorem unregisterAll (ids : List Nat) : (unregisterAll ids directory).2.InOrder count :=
  unregisterAll_preserves (·.InOrder count) inOrder (fun kept done => kept.unregister done) ids

theorem apply (request : Request) (few : count + directory.drawn request < maxId) :
    (directory.apply request).InOrder (count + directory.drawn request) := by
  cases request with
  | register now session pattern invoke options =>
    rw [drawn] at few ⊢
    simp only [Directory.apply]
    cases done : directory.register now session pattern invoke options with
    | error refusal => exact inOrder
    | ok answer =>
      simp only [done] at few ⊢
      rcases (register_eq_ok_iff directory now session pattern invoke options).mp ⟨_, done⟩ with
        new | ⟨entry, held, shared, same⟩
      · obtain ⟨_, _, made⟩ := register_of_new directory now session invoke options new
        rw [made] at done
        obtain ⟨-, -, rfl⟩ := done
        rw [new] at few ⊢
        simp only [Option.isSome_none, Bool.false_eq_true, if_false] at few ⊢
        have opened := inOrder.opened (by omega) now pattern invoke
        exact opened.join few session _ options
      · obtain ⟨_, _, made⟩ := register_of_shared now session options held shared same
        rw [made] at done
        obtain ⟨-, -, rfl⟩ := done
        rw [held] at few ⊢
        simp only [Option.isSome_some, if_true] at few ⊢
        exact inOrder.join few session entry options
  | unregister id =>
    simp only [Directory.apply]
    cases done : directory.unregister id with
    | error refusal => exact inOrder
    | ok answer => exact inOrder.unregister done
  | closeSession session => exact inOrder.unregisterAll _
  | select entry draw =>
    refine ⟨inOrder.next, ?_⟩
    intro id member
    have same : (directory.apply (.select entry draw)).usedIds = directory.usedIds :=
      usedIds_updateEntry directory entry.id _
    rw [same] at member
    exact inOrder.used id member

theorem ends (wellFormed : directory.WellFormed) (request : Request)
    (few : count + directory.drawn request < maxId) : directory.Ends request := by
  cases request with
  | register now session pattern invoke options =>
    rintro ⟨answer, done⟩
    simp only [drawn, done] at few
    have inside : directory.usedIds.toFinset ⊆ Finset.Icc 1 count := by
      intro id member
      rw [List.mem_toFinset] at member
      have valid := (isValidId_iff id).mp (wellFormed.valid id member)
      exact Finset.mem_Icc.mpr ⟨valid.1, inOrder.used id member⟩
    have bound := Finset.card_le_card inside
    rw [List.toFinset_card_of_nodup wellFormed.distinct, Nat.card_Icc] at bound
    rw [HasRoom]
    omega
  | unregister | closeSession | select => trivial

end InOrder

theorem drawn_le (directory : Directory) (request : Request) : directory.drawn request ≤ 2 := by
  unfold drawn
  split
  · split
    · split <;> omega
    · omega
  · omega

theorem reachable_foldl (requests : List Request) (few : 2 * requests.length < maxId) :
    Reachable (requests.foldl apply {}) := by
  have both : Reachable (requests.foldl apply {}) ∧
      ∃ count, count ≤ 2 * requests.length ∧ (requests.foldl apply {}).InOrder count := by
    induction requests using List.reverseRecOn with
    | nil => exact ⟨.empty, 0, Nat.zero_le _, .empty⟩
    | append_singleton requests request ih =>
      rw [List.length_append, List.length_singleton] at few ⊢
      obtain ⟨reachable, count, bound, inOrder⟩ := ih (by omega)
      have more := drawn_le (requests.foldl apply {}) request
      have room : count + drawn (requests.foldl apply {}) request < maxId := by omega
      rw [List.foldl_concat]
      refine ⟨.next reachable request ?_, _, by omega, inOrder.apply request room⟩
      exact inOrder.ends (wellFormed_of_reachable reachable) request room
  exact both.1

end CallRouter.Registration.Directory
