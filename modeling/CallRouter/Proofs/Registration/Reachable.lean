import CallRouter.Proofs.Registration.WellFormed

namespace CallRouter.Registration.Directory

variable {directory : Directory}

inductive Request where
  | register (now : Time) (session : Nat) (pattern : Pattern) (invoke : InvocationPolicy)
    (options : Dict)
  | unregister (id : Nat)
  | closeSession (session : Nat)
  | select (entry : Entry) (draw : Nat)

def apply (directory : Directory) : Request → Directory
  | .register now session pattern invoke options =>
    match directory.register now session pattern invoke options with
    | .ok (_, _, later) => later
    | .error _ => directory
  | .unregister id =>
    match directory.unregister id with
    | .ok (_, _, later) => later
    | .error _ => directory
  | .closeSession session => (directory.closeSession session).2
  | .select entry draw => (directory.select entry draw).2

def Ends (directory : Directory) : Request → Prop
  | .register now session pattern invoke options =>
    (∃ answer, directory.register now session pattern invoke options = .ok answer) →
      directory.HasRoom pattern
  | _ => True

inductive Reachable : Directory → Prop
  | empty : Reachable {}
  | next {directory : Directory} (reachable : Reachable directory) (request : Request)
      (ends : directory.Ends request) : Reachable (directory.apply request)

theorem wellFormed_apply (wellFormed : directory.WellFormed) (request : Request)
    (ends : directory.Ends request) : (directory.apply request).WellFormed := by
  cases request with
  | register now session pattern invoke options =>
    simp only [apply]
    cases done : directory.register now session pattern invoke options with
    | error refusal => exact wellFormed
    | ok answer =>
      obtain ⟨registration, events, later⟩ := answer
      exact wellFormed_register wellFormed (ends ⟨_, done⟩) done
  | unregister id =>
    simp only [apply]
    cases done : directory.unregister id with
    | error refusal => exact wellFormed
    | ok answer =>
      obtain ⟨registration, events, later⟩ := answer
      exact wellFormed_unregister wellFormed done
  | closeSession session => exact wellFormed_unregisterAll wellFormed _
  | select entry draw => exact wellFormed_advance wellFormed entry.id

theorem wellFormed_of_reachable (reachable : Reachable directory) : directory.WellFormed := by
  induction reachable with
  | empty => exact wellFormed_empty
  | next _ request ends ih => exact wellFormed_apply ih request ends

section Patterns

variable {later : Directory} {id : Nat} {after : Entry}

def Keeps (directory later : Directory) : Prop :=
  ∀ id after, later.entry? id = some after →
    ∃ before, directory.entry? id = some before ∧ after.pattern = before.pattern

theorem keeps_refl (directory : Directory) : directory.Keeps directory :=
  fun _ after found => ⟨after, found, rfl⟩

theorem keeps_trans {last : Directory} (first : directory.Keeps later) (second : later.Keeps last) :
    directory.Keeps last := by
  intro id after found
  obtain ⟨between, found, same⟩ := second id after found
  obtain ⟨before, found, agree⟩ := first id between found
  exact ⟨before, found, same.trans agree⟩

theorem keeps_deprived (directory : Directory) (id : Nat) (registration : Registration) :
    directory.Keeps (directory.deprived id registration) := by
  intro other after found
  exact (internal_remove id).pattern_eq found

theorem keeps_unregister {registration : Registration} {events : List Event}
    (done : directory.unregister id = .ok (registration, events, later)) :
    directory.Keeps later := by
  obtain ⟨_, rfl⟩ := unregister_eq_ok done
  split
  · refine keeps_trans (keeps_deprived directory id registration) ?_
    intro other after found
    exact ⟨after, (entry_drop.mp found).2, rfl⟩
  · exact keeps_deprived directory id registration

theorem keeps_unregisterAll (directory : Directory) (ids : List Nat) :
    directory.Keeps (unregisterAll ids directory).2 :=
  unregisterAll_preserves directory.Keeps (keeps_refl directory)
    (fun kept done => keeps_trans kept (keeps_unregister done)) ids

theorem keeps_join (directory : Directory) (session : Nat) (entry : Entry) (options : Dict) :
    directory.Keeps (directory.join session entry options).2 := by
  intro id after found
  obtain ⟨before, held, rfl⟩ := entry_join.mp found
  refine ⟨before, held, ?_⟩
  split <;> rfl

theorem pattern_apply {request : Request}
    (found : entry? (directory.apply request) id = some after) :
    (∃ before, directory.entry? id = some before ∧ after.pattern = before.pattern) ∨
      ∃ now session invoke options,
        request = .register now session after.pattern invoke options := by
  cases request with
  | register now session pattern invoke options =>
    simp only [apply] at found
    cases done : directory.register now session pattern invoke options with
    | error refusal =>
      simp only [done] at found
      exact .inl ⟨after, found, rfl⟩
    | ok answer =>
      obtain ⟨registration, events, later⟩ := answer
      simp only [done] at found
      rcases (register_eq_ok_iff directory now session pattern invoke options).mp ⟨_, done⟩ with
        new | ⟨entry, held, shared, same⟩
      · obtain ⟨_, _, made⟩ := register_of_new directory now session invoke options new
        rw [made] at done
        obtain ⟨-, -, rfl⟩ := done
        obtain ⟨before, listed, agree⟩ := keeps_join _ session _ options id after found
        rw [entry_opened] at listed
        split at listed
        · obtain rfl := Option.some.inj listed
          exact .inr ⟨now, session, invoke, options, by rw [agree]; rfl⟩
        · exact .inl ⟨before, listed, agree⟩
      · obtain ⟨_, _, made⟩ := register_of_shared now session options held shared same
        rw [made] at done
        obtain ⟨-, -, rfl⟩ := done
        exact .inl (keeps_join directory session entry options id after found)
  | unregister other =>
    left
    simp only [apply] at found
    cases done : directory.unregister other with
    | error refusal =>
      simp only [done] at found
      exact ⟨after, found, rfl⟩
    | ok answer =>
      obtain ⟨registration, events, later⟩ := answer
      simp only [done] at found
      exact keeps_unregister done id after found
  | closeSession session => exact .inl (keeps_unregisterAll directory _ id after found)
  | select entry draw => exact .inl (internal_advance.pattern_eq found)

end Patterns

theorem WellFormed.entryOf?_eq_none (wellFormed : directory.WellFormed) (pattern : Pattern) :
    directory.entryOf? pattern = none ↔ ∀ id registration,
      directory.registration? id = some registration → registration.pattern ≠ pattern := by
  have consistent := wellFormed.toConsistent
  rw [Option.eq_none_iff_forall_ne_some]
  constructor
  · intro none id registration live same
    obtain ⟨entry, held, agree⟩ := consistent.pointers id registration live
    rw [← consistent.entryId _ entry held] at held
    exact none entry (consistent.entryOf?_eq_some_iff.mpr ⟨held, agree.trans same⟩)
  · intro unused entry found
    obtain ⟨held, same⟩ := consistent.entryOf?_eq_some_iff.mp found
    obtain ⟨id, member⟩ := List.exists_mem_of_ne_nil _ (wellFormed.inhabited _ entry held)
    obtain ⟨registration, live, points⟩ := (consistent.mem_members held).mp member
    obtain ⟨holder, also, agree⟩ := consistent.pointers id registration live
    rw [points, held] at also
    obtain rfl := Option.some.inj also
    exact unused id registration live (agree.symm.trans same)

/--
However a directory came about, the entry that a pattern stands for is the one found by its id, and
no other entries are; their members are the live registrations and nothing else; and no id is used
twice. A registration succeeds exactly if its pattern is new or shared with the same policy.
-/
theorem reachable_directory (reachable : Reachable directory) :
    (∀ pattern id, directory.names.find? pattern = some id →
      ∃ entry, directory.entries.find? id = some entry ∧ entry.pattern = pattern ∧
        entry.members ≠ []) ∧
    (∀ id entry, directory.entries.find? id = some entry →
      entry.id = id ∧ directory.names.find? entry.pattern = some id) ∧
    (∀ id entry, directory.entries.find? id = some entry →
      entry.members.Nodup ∧ ∀ other also, directory.entries.find? other = some also →
        other ≠ id → entry.members.Disjoint also.members) ∧
    (∀ id, (∃ other entry, directory.entries.find? other = some entry ∧ id ∈ entry.members) ↔
      ∃ registration, directory.registrations.find? id = some registration) ∧
    (∀ id registration, directory.registrations.find? id = some registration →
      registration.id = id ∧ ∃ entry, directory.entries.find? registration.entry = some entry ∧
        entry.pattern = registration.pattern ∧ id ∈ entry.members) ∧
    (directory.entries.keys ++ directory.registrations.keys).Nodup ∧
    (∀ id ∈ directory.entries.keys ++ directory.registrations.keys, 1 ≤ id ∧ id ≤ maxId) ∧
    (∀ id entry, directory.entries.find? id = some entry →
      (entry.invoke = .single → entry.members.length = 1) ∧
        entry.cursor ≤ entry.members.length) ∧
    (∀ now session pattern invoke options,
      (∃ answer, directory.register now session pattern invoke options = .ok answer) ↔
        (∀ id registration, directory.registrations.find? id = some registration →
          registration.pattern ≠ pattern) ∨
        ∃ entry, directory.entryOf? pattern = some entry ∧ entry.invoke.isShared = true ∧
          entry.invoke = invoke) := by
  have wellFormed := wellFormed_of_reachable reachable
  have consistent := wellFormed.toConsistent
  refine ⟨?_, ?_, ?_, ?_, ?_, consistent.distinct, ?_, ?_, ?_⟩
  · intro pattern id named
    obtain ⟨entry, held, same⟩ := (consistent.named pattern id).mp named
    exact ⟨entry, held, same, wellFormed.inhabited id entry held⟩
  · intro id entry held
    exact ⟨consistent.entryId id entry held, (consistent.named _ _).mpr ⟨entry, held, rfl⟩⟩
  · intro id entry held
    refine ⟨consistent.nodup_members held, ?_⟩
    intro other also beside apart member inside shared
    obtain ⟨live, found, points⟩ := (consistent.mem_members held).mp inside
    obtain ⟨same, refound, pointsAlso⟩ := (consistent.mem_members beside).mp shared
    obtain rfl := Option.some.inj (found.symm.trans refound)
    exact apart (pointsAlso.symm.trans points)
  · intro id
    constructor
    · rintro ⟨other, entry, held, member⟩
      obtain ⟨registration, live, -⟩ := (consistent.mem_members held).mp member
      exact ⟨registration, live⟩
    · rintro ⟨registration, live⟩
      obtain ⟨entry, held, -⟩ := consistent.pointers id registration live
      exact ⟨_, entry, held, (consistent.mem_members held).mpr ⟨registration, live, rfl⟩⟩
  · intro id registration live
    obtain ⟨entry, held, same⟩ := consistent.pointers id registration live
    exact ⟨consistent.registrationId id registration live, entry, held, same,
      (consistent.mem_members held).mpr ⟨registration, live, rfl⟩⟩
  · intro id member
    exact (isValidId_iff id).mp (consistent.valid id member)
  · intro id entry held
    exact ⟨wellFormed.single id entry held, consistent.cursor id entry held⟩
  · intro now session pattern invoke options
    rw [register_eq_ok_iff, wellFormed.entryOf?_eq_none]
    rfl

def handedOver : List Request :=
  [.register 0 1 ⟨.exact, "app.echo"⟩ .roundRobin [],
    .register 0 2 ⟨.exact, "app.echo"⟩ .roundRobin [],
    .select { id := 1, pattern := ⟨.exact, "app.echo"⟩, invoke := .roundRobin, created := 0 } 0,
    .closeSession 1]

theorem reachable_directory_of_handedOver :
    Reachable (handedOver.foldl apply {}) ∧
    (∃ entry, (handedOver.foldl apply {}).entries.find? 1 = some entry ∧ entry.members = [3] ∧
      entry.cursor = 0) ∧
    ∃ answer, (handedOver.foldl apply {}).register 0 1 ⟨.exact, "app.echo"⟩ .roundRobin [] =
      .ok answer := by
  have one : Directory.HasRoom {} ⟨.exact, "app.echo"⟩ := by
    unfold HasRoom
    decide +kernel
  have two : ((handedOver.take 1).foldl apply {}).HasRoom ⟨.exact, "app.echo"⟩ := by
    unfold HasRoom
    decide +kernel
  have shared : Reachable ((handedOver.take 2).foldl apply {}) :=
    .next (.next .empty handedOver[0] fun _ => one) handedOver[1] fun _ => two
  have reachable : Reachable (handedOver.foldl apply {}) :=
    .next (.next shared handedOver[2] trivial) handedOver[3] trivial
  obtain ⟨-, -, -, -, -, -, -, -, registers⟩ := reachable_directory reachable
  refine ⟨reachable, ⟨_, rfl, by decide +kernel, by decide +kernel⟩, (registers _ _ _ _ _).mpr ?_⟩
  exact .inr ⟨_, rfl, by decide +kernel, by decide +kernel⟩

end CallRouter.Registration.Directory
