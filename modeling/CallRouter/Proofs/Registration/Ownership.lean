import CallRouter.Proofs.Registration.WellFormed

namespace CallRouter.Registration.Directory

variable {directory later : Directory} {session id : Nat}

theorem mem_ownedBy : id ∈ directory.ownedBy session ↔
    ∃ registration, directory.registration? id = some registration ∧
      registration.session = session := by
  simp [ownedBy, Keyed.mem_keys_iff, Keyed.find?_filter, registration?]

theorem ownedBy_eq_nil : directory.ownedBy session = [] ↔
    ∀ id registration, directory.registration? id = some registration →
      registration.session ≠ session := by
  rw [List.eq_nil_iff_forall_not_mem]
  simp [mem_ownedBy]

theorem ownedBy_stays_nil (none : directory.ownedBy session = [])
    (grown : ∀ id registration, later.registration? id = some registration →
      directory.registration? id = some registration ∨ registration.session ≠ session) :
    later.ownedBy session = [] := by
  rw [ownedBy_eq_nil] at none ⊢
  intro id registration found
  rcases grown id registration found with before | foreign
  · exact none id registration before
  · exact foreign

theorem registration_drop (directory : Directory) (pattern : Pattern) (entry other : Nat) :
    (directory.drop pattern entry).registration? other = directory.registration? other := rfl

theorem registration_unregister {registration live : Registration} {events : List Event}
    {other : Nat} (done : directory.unregister id = .ok (registration, events, later)) :
    later.registration? other = some live ↔
      id ≠ other ∧ directory.registration? other = some live := by
  obtain ⟨-, rfl⟩ := unregister_eq_ok done
  split
  · rw [registration_drop, registration_deprived]
  · exact registration_deprived

theorem registration_of_refused {refusal : Refusal}
    (refused : directory.unregister id = .error refusal) :
    directory.registration? id = none := by
  cases found : directory.registration? id with
  | none => rfl
  | some registration =>
    simp only [unregister, found] at refused
    split at refused <;> cases refused

theorem registration_unregisterAll (ids : List Nat) {other : Nat} {live : Registration} :
    (unregisterAll ids directory).2.registration? other = some live ↔
      other ∉ ids ∧ directory.registration? other = some live := by
  induction ids generalizing directory with
  | nil => simp [unregisterAll]
  | cons id ids ih =>
    cases done : directory.unregister id with
    | error refusal =>
      have absent := registration_of_refused done
      simp only [unregisterAll, done, ih, List.mem_cons, not_or]
      constructor
      · rintro ⟨outside, found⟩
        refine ⟨⟨?_, outside⟩, found⟩
        rintro rfl
        simp [absent] at found
      · rintro ⟨⟨_, outside⟩, found⟩
        exact ⟨outside, found⟩
    | ok answer =>
      obtain ⟨registration, events, between⟩ := answer
      simp only [unregisterAll, done, ih, registration_unregister done, List.mem_cons, not_or]
      constructor
      · rintro ⟨outside, apart, found⟩
        exact ⟨⟨apart.symm, outside⟩, found⟩
      · rintro ⟨⟨apart, outside⟩, found⟩
        exact ⟨outside, fun same => apart same.symm, found⟩

theorem registration_of_register {now : Time} {pattern : Pattern} {invoke : InvocationPolicy}
    {options : Dict} {registration live : Registration} {events : List Event} {other : Nat}
    (done : directory.register now session pattern invoke options =
      .ok (registration, events, later))
    (found : later.registration? other = some live) :
    directory.registration? other = some live ∨ live.session = session := by
  have joined (before : Directory) (entry : Entry)
      (found : (before.join session entry options).2.registration? other = some live) :
      before.registration? other = some live ∨ live.session = session := by
    rw [registration_join] at found
    split at found
    · obtain rfl := Option.some.inj found
      exact .inr rfl
    · exact .inl found
  cases held : directory.entryOf? pattern with
  | none =>
    obtain ⟨_, _, made⟩ := register_of_new directory now session invoke options held
    rw [made] at done
    obtain ⟨-, -, rfl⟩ := done
    exact joined (directory.opened _) _ found
  | some entry =>
    simp only [register, held] at done
    split at done
    · obtain ⟨-, -, rfl⟩ := done
      exact joined directory entry found
    · cases done

theorem registration_grown {entry : Entry} {options : Dict} {other : Nat} {live : Registration}
    (unused : directory.allocate.1 ∉ directory.usedIds) :
    (directory.join session entry options).2.registration? other = some live ↔
      directory.registration? other = some live ∨
        other = (directory.join session entry options).1.id ∧
          live = (directory.join session entry options).1 := by
  have added : (directory.join session entry options).1 =
      directory.joining session entry options := rfl
  rw [registration_join, added]
  split
  · rename_i here
    subst here
    simp [registration_eq_none unused, joining, eq_comm]
  · rename_i apart
    simp [joining, Ne.symm apart]

theorem joined_of_register (wellFormed : directory.WellFormed) {now : Time} {pattern : Pattern}
    {invoke : InvocationPolicy} {options : Dict} {registration : Registration}
    {events : List Event} (room : directory.HasRoom pattern)
    (done : directory.register now session pattern invoke options =
      .ok (registration, events, later)) :
    ∃ (before : Directory) (entry : Entry), before.registrations = directory.registrations ∧
      before.allocate.1 ∉ before.usedIds ∧
      registration = (before.join session entry options).1 ∧
      later = (before.join session entry options).2 := by
  have consistent := wellFormed.toConsistent
  cases held : directory.entryOf? pattern with
  | none =>
    simp only [HasRoom, held, Option.isSome_none, Bool.false_eq_true, if_false] at room
    have fits : directory.usedIds.length < maxId := by omega
    have unused := (consistent.allocate fits).2
    have grown : (directory.opened (directory.opening now pattern invoke)).usedIds.length =
        directory.usedIds.length + 1 := by
      rw [(usedIds_opened unused).length_eq, List.length_append, List.length_singleton]
    have opened : (directory.opened (directory.opening now pattern invoke)).Consistent :=
      consistent_opened consistent fits (consistent.entryOf?_eq_none_iff.mp held)
    simp only [register, held] at done
    obtain ⟨rfl, -, rfl⟩ := done
    exact ⟨directory.opened (directory.opening now pattern invoke),
      directory.opening now pattern invoke, rfl, (opened.allocate (by omega)).2, rfl, rfl⟩
  | some entry =>
    simp only [HasRoom, held, Option.isSome_some, if_true] at room
    simp only [register, held] at done
    split at done
    · obtain ⟨rfl, -, rfl⟩ := done
      exact ⟨directory, entry, rfl, (consistent.allocate (by omega)).2, rfl, rfl⟩
    · cases done

theorem registration_register (wellFormed : directory.WellFormed) {now : Time} {pattern : Pattern}
    {invoke : InvocationPolicy} {options : Dict} {registration live : Registration}
    {events : List Event} {other : Nat} (room : directory.HasRoom pattern)
    (done : directory.register now session pattern invoke options =
      .ok (registration, events, later)) :
    registration.session = session ∧
      (later.registration? other = some live ↔ directory.registration? other = some live ∨
        other = registration.id ∧ live = registration) := by
  obtain ⟨before, entry, same, unused, rfl, rfl⟩ := joined_of_register wellFormed room done
  have kept : directory.registration? other = before.registration? other := by
    rw [registration?, ← same, registration?]
  rw [kept]
  exact ⟨rfl, registration_grown unused⟩

theorem session_of_register {now : Time} {pattern : Pattern} {invoke : InvocationPolicy}
    {options : Dict} {registration : Registration} {events : List Event}
    (done : directory.register now session pattern invoke options =
      .ok (registration, events, later)) : ∀ event ∈ events, event.session = session := by
  simp only [register] at done
  split at done
  · split at done
    · obtain ⟨-, rfl, -⟩ := done
      simp
    · cases done
  · obtain ⟨-, rfl, -⟩ := done
    simp

theorem session_of_unregister {registration : Registration} {events : List Event}
    (done : directory.unregister id = .ok (registration, events, later)) :
    ∀ event ∈ events, event.session = registration.session := by
  simp only [unregister] at done
  split at done
  · cases done
  · split at done <;>
    · obtain ⟨rfl, rfl, -⟩ := done
      simp

theorem session_of_unregisterAll (ids : List Nat) :
    ∀ event ∈ (unregisterAll ids directory).1, ∃ id registration,
      directory.registration? id = some registration ∧ registration.session = event.session := by
  induction ids generalizing directory with
  | nil => simp [unregisterAll]
  | cons id ids ih =>
    cases done : directory.unregister id with
    | error refusal =>
      simp only [unregisterAll, done]
      exact ih
    | ok answer =>
      obtain ⟨registration, events, between⟩ := answer
      simp only [unregisterAll, done]
      intro event member
      rcases List.mem_append.mp member with first | rest
      · have same := session_of_unregister done event first
        exact ⟨id, registration, (unregister_eq_ok done).1, same.symm⟩
      · obtain ⟨other, owner, found, same⟩ := ih event rest
        exact ⟨other, owner, ((registration_unregister done).mp found).2, same⟩

theorem registration_of_closed {ids : List Nat} (all : ids.Perm (directory.ownedBy session))
    {other : Nat} {live : Registration} :
    (unregisterAll ids directory).2.registration? other = some live ↔
      directory.registration? other = some live ∧ live.session ≠ session := by
  rw [registration_unregisterAll, all.mem_iff, mem_ownedBy]
  constructor
  · rintro ⟨foreign, found⟩
    exact ⟨found, fun owned => foreign ⟨live, found, owned⟩⟩
  · rintro ⟨found, foreign⟩
    refine ⟨?_, found⟩
    rintro ⟨registration, also, owned⟩
    obtain rfl := Option.some.inj (found.symm.trans also)
    exact foreign owned

theorem ownedBy_of_closed {ids : List Nat} (all : ids.Perm (directory.ownedBy session)) :
    (unregisterAll ids directory).2.ownedBy session = [] := by
  rw [ownedBy_eq_nil]
  intro id registration found
  exact ((registration_of_closed all).mp found).2

end CallRouter.Registration.Directory
