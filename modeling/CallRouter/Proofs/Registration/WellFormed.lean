import CallRouter.Proofs.Registration.Consistent

namespace CallRouter.Registration.Directory

variable {directory later : Directory}

structure WellFormed (directory : Directory) : Prop extends Consistent directory where
  inhabited (id : Nat) (entry : Entry) : directory.entry? id = some entry → entry.members ≠ []
  single (id : Nat) (entry : Entry) : directory.entry? id = some entry →
    entry.invoke = .single → entry.members.length = 1

theorem wellFormed_empty : WellFormed {} where
  named pattern id := by simp [Keyed.find?, Keyed.empty, Keyed.lookup, entry?]
  entryId id entry found := by cases found
  registrationId id registration found := by cases found
  distinct := by decide
  valid id member := by cases member
  next := by decide
  members id entry found := by cases found
  pointers id registration found := by cases found
  cursor id entry found := by cases found
  inhabited id entry found := by cases found
  single id entry found := by cases found

theorem nodup_concat {α : Type} {items : List α} {last : α} (distinct : items.Nodup)
    (new : last ∉ items) : (items ++ [last]).Nodup := by
  rw [List.nodup_append]
  refine ⟨distinct, by simp, ?_⟩
  intro one member other single same
  rw [List.mem_singleton] at single
  exact new (single ▸ same ▸ member)

theorem entry_eq_none (unused : directory.allocate.1 ∉ directory.usedIds) :
    directory.entry? directory.allocate.1 = none := by
  rw [Option.eq_none_iff_forall_ne_some]
  intro entry found
  exact unused ((mem_usedIds _ _).mpr (.inl ⟨entry, found⟩))

theorem registration_eq_none (unused : directory.allocate.1 ∉ directory.usedIds) :
    directory.registration? directory.allocate.1 = none := by
  rw [Option.eq_none_iff_forall_ne_some]
  intro registration found
  exact unused ((mem_usedIds _ _).mpr (.inr ⟨registration, found⟩))

def joining (directory : Directory) (session : Nat) (entry : Entry) (options : Dict) :
    Registration :=
  ⟨directory.allocate.1, session, entry.id, entry.pattern, options⟩

section Join

variable (directory) (session : Nat) (entry : Entry) (options : Dict)

theorem join_eq : (directory.join session entry options).2 =
    { directory.updateEntry entry.id (·.add directory.allocate.1) with
      registrations := directory.registrations.insert directory.allocate.1
        (directory.joining session entry options)
      ids := directory.allocate.2.ids } := rfl

variable {directory session entry options}

theorem entry_join {id : Nat} {after : Entry} :
    entry? (directory.join session entry options).2 id = some after ↔
      ∃ before, directory.entry? id = some before ∧
        after = if id = entry.id then before.add directory.allocate.1 else before :=
  entry_updateEntry

theorem registration_join (id : Nat) :
    (directory.join session entry options).2.registration? id =
      if directory.allocate.1 = id then some (directory.joining session entry options)
      else directory.registration? id :=
  Keyed.find?_insert _ _ _ _

theorem usedIds_join (unused : directory.allocate.1 ∉ directory.usedIds) :
    (directory.join session entry options).2.usedIds =
      directory.usedIds ++ [directory.allocate.1] := by
  rw [join_eq, usedIds, Keyed.keys_insert (registration_eq_none unused), updateEntry, Keyed.keys_map,
    ← List.append_assoc]
  rfl

theorem members_join {id : Nat} {before : Entry} :
    (if id = entry.id then before.add directory.allocate.1 else before).members =
      before.members ++ if entry.id = id then [directory.allocate.1] else [] := by
  by_cases here : id = entry.id
  · simp [here, Entry.add]
  · have apart : entry.id ≠ id := fun same => here same.symm
    simp [here, apart]

theorem consistent_join (consistent : directory.Consistent)
    (room : directory.usedIds.length < maxId) (held : directory.entry? entry.id = some entry) :
    (directory.join session entry options).2.Consistent := by
  obtain ⟨valid, unused⟩ := consistent.allocate room
  have internal := internal_add directory.allocate.1
  exact
    { named := internal.named consistent entry.id
      entryId := fun id after found => internal.entryId consistent found
      registrationId := by
        intro id registration found
        rw [registration_join] at found
        split at found
        · obtain rfl := Option.some.inj found
          assumption
        · exact consistent.registrationId id registration found
      distinct := by
        rw [usedIds_join unused]
        exact nodup_concat consistent.distinct unused
      valid := by
        rw [usedIds_join unused]
        intro id member
        rcases List.mem_append.mp member with before | new
        · exact consistent.valid id before
        · rw [List.mem_singleton.mp new]
          exact valid
      next := isValidId_nextId _
      members := by
        intro id after found
        obtain ⟨before, inside, rfl⟩ := entry_join.mp found
        rw [members_join, consistent.members id before inside, join_eq,
          pointingTo_insert (registration_eq_none unused)]
        rfl
      pointers := by
        intro id registration found
        rw [registration_join] at found
        split at found
        · obtain rfl := Option.some.inj found
          exact internal.entry_exists entry.id held
        · exact internal.pointers consistent entry.id found
      cursor := by
        intro id after found
        obtain ⟨before, inside, rfl⟩ := entry_join.mp found
        have bound := consistent.cursor id before inside
        have same : (if id = entry.id then before.add directory.allocate.1 else before).cursor =
            before.cursor := by split <;> rfl
        rw [same, members_join, List.length_append]
        omega }

theorem wellFormed_join (consistent : directory.Consistent)
    (room : directory.usedIds.length < maxId) (held : directory.entry? entry.id = some entry)
    (others : ∀ id other, directory.entry? id = some other → id ≠ entry.id →
      other.members ≠ [] ∧ (other.invoke = .single → other.members.length = 1))
    (alone : entry.invoke = .single → entry.members = []) :
    (directory.join session entry options).2.WellFormed where
  toConsistent := consistent_join consistent room held
  inhabited := by
    intro id after found
    obtain ⟨before, inside, rfl⟩ := entry_join.mp found
    by_cases here : id = entry.id
    · simp [here, Entry.add]
    · rw [if_neg here]
      exact (others id before inside here).1
  single := by
    intro id after found invoke
    obtain ⟨before, inside, rfl⟩ := entry_join.mp found
    by_cases here : id = entry.id
    · rw [if_pos here] at invoke ⊢
      rw [here] at inside
      obtain rfl := Option.some.inj (inside.symm.trans held)
      simp [Entry.add, alone invoke]
    · rw [if_neg here] at invoke ⊢
      exact (others id before inside here).2 invoke

end Join

def opening (directory : Directory) (now : Time) (pattern : Pattern) (invoke : InvocationPolicy) :
    Entry :=
  { id := directory.allocate.1, pattern, invoke, created := now }

def opened (directory : Directory) (entry : Entry) : Directory :=
  { directory.allocate.2 with
    names := directory.names.insert entry.pattern entry.id
    entries := directory.entries.insert entry.id entry }

section Opening

variable {now : Time} {pattern : Pattern} {invoke : InvocationPolicy}

theorem entry_opened (entry : Entry) (id : Nat) :
    entry? (directory.opened entry) id =
      if entry.id = id then some entry else directory.entry? id :=
  Keyed.find?_insert _ _ _ _

theorem names_opened (entry : Entry) (pattern : Pattern) :
    (directory.opened entry).names.find? pattern =
      if entry.pattern = pattern then some entry.id else directory.names.find? pattern :=
  Keyed.find?_insert _ _ _ _

theorem usedIds_opened (unused : directory.allocate.1 ∉ directory.usedIds) :
    (directory.opened (directory.opening now pattern invoke)).usedIds.Perm
      (directory.usedIds ++ [directory.allocate.1]) := by
  have keys := Keyed.keys_insert (entry_eq_none unused) (directory.opening now pattern invoke)
  have shape : (directory.opened (directory.opening now pattern invoke)).usedIds =
      directory.entries.keys ++ ([directory.allocate.1] ++ directory.registrations.keys) := by
    rw [← List.append_assoc, ← keys]
    rfl
  rw [shape, usedIds, List.append_assoc]
  exact List.perm_append_comm.append_left _

theorem entry_opened_cases {opening entry : Entry} {id : Nat}
    (found : entry? (directory.opened opening) id = some entry) :
    id = opening.id ∧ entry = opening ∨ directory.entry? id = some entry := by
  rw [entry_opened] at found
  split at found
  · exact .inl ⟨by symm; assumption, (Option.some.inj found).symm⟩
  · exact .inr found

theorem entry_opened_of_found {opening entry : Entry} {id : Nat}
    (absent : directory.entry? opening.id = none) (found : directory.entry? id = some entry) :
    entry? (directory.opened opening) id = some entry := by
  rw [entry_opened, if_neg]
  · exact found
  · rintro rfl
    rw [absent] at found
    cases found

theorem named_opened (consistent : directory.Consistent) {opening : Entry}
    (absent : directory.entry? opening.id = none)
    (new : directory.names.find? opening.pattern = none) (pattern : Pattern) (id : Nat) :
    (directory.opened opening).names.find? pattern = some id ↔
      ∃ entry, entry? (directory.opened opening) id = some entry ∧ entry.pattern = pattern := by
  rw [names_opened]
  constructor
  · intro named
    split at named
    · rename_i same
      obtain rfl := Option.some.inj named
      exact ⟨_, by rw [entry_opened, if_pos rfl], same⟩
    · obtain ⟨entry, found, same⟩ := (consistent.named pattern id).mp named
      exact ⟨entry, entry_opened_of_found absent found, same⟩
  · rintro ⟨entry, found, rfl⟩
    rcases entry_opened_cases found with ⟨rfl, rfl⟩ | found
    · rw [if_pos rfl]
    · have named := (consistent.named _ _).mpr ⟨entry, found, rfl⟩
      rw [if_neg]
      · exact named
      · intro same
        rw [← same, new] at named
        cases named

theorem consistent_opened (consistent : directory.Consistent)
    (room : directory.usedIds.length < maxId) (new : directory.names.find? pattern = none) :
    (directory.opened (directory.opening now pattern invoke)).Consistent := by
  obtain ⟨valid, unused⟩ := consistent.allocate room
  have absent : directory.entry? (directory.opening now pattern invoke).id = none :=
    entry_eq_none unused
  exact
    { named := named_opened consistent absent new
      entryId := by
        intro id entry found
        rcases entry_opened_cases found with ⟨rfl, rfl⟩ | found
        · rfl
        · exact consistent.entryId id entry found
      registrationId := consistent.registrationId
      distinct := by
        rw [(usedIds_opened unused).nodup_iff]
        exact nodup_concat consistent.distinct unused
      valid := by
        intro id member
        rw [(usedIds_opened unused).mem_iff, List.mem_append, List.mem_singleton] at member
        rcases member with before | rfl
        · exact consistent.valid id before
        · exact valid
      next := isValidId_nextId _
      members := by
        intro id entry found
        rcases entry_opened_cases found with ⟨rfl, rfl⟩ | found
        · -- Nothing points to an entry whose id is new.
          rw [opening, eq_comm, List.eq_nil_iff_forall_not_mem]
          intro registration member
          obtain ⟨live, registered, points⟩ := mem_pointingTo.mp member
          obtain ⟨entry, found, -⟩ := consistent.pointers registration live registered
          rw [points] at found
          cases absent.symm.trans found
        · exact consistent.members id entry found
      pointers := by
        intro id registration live
        obtain ⟨entry, found, same⟩ := consistent.pointers id registration live
        exact ⟨entry, entry_opened_of_found absent found, same⟩
      cursor := by
        intro id entry found
        rcases entry_opened_cases found with ⟨rfl, rfl⟩ | found
        · exact Nat.zero_le _
        · exact consistent.cursor id entry found }

end Opening

theorem register_of_new (directory : Directory) (now : Time) (session : Nat) {pattern : Pattern}
    (invoke : InvocationPolicy) (options : Dict) (new : directory.entryOf? pattern = none) :
    ∃ registration events, directory.register now session pattern invoke options =
      .ok (registration, events, ((directory.opened (directory.opening now pattern invoke)).join
        session (directory.opening now pattern invoke) options).2) := by
  simp only [register, new]
  exact ⟨_, _, rfl⟩

theorem register_of_shared (now : Time) (session : Nat) {pattern : Pattern}
    {invoke : InvocationPolicy} (options : Dict) {entry : Entry}
    (found : directory.entryOf? pattern = some entry) (shared : entry.invoke.isShared = true)
    (same : entry.invoke = invoke) :
    ∃ registration events, directory.register now session pattern invoke options =
      .ok (registration, events, (directory.join session entry options).2) := by
  subst same
  simp only [register, found, shared, beq_self_eq_true, Bool.and_self, if_true]
  exact ⟨_, _, rfl⟩

theorem register_eq_ok_iff (directory : Directory) (now : Time) (session : Nat) (pattern : Pattern)
    (invoke : InvocationPolicy) (options : Dict) :
    (∃ answer, directory.register now session pattern invoke options = .ok answer) ↔
      directory.entryOf? pattern = none ∨ ∃ entry, directory.entryOf? pattern = some entry ∧
        entry.invoke.isShared = true ∧ entry.invoke = invoke := by
  cases found : directory.entryOf? pattern with
  | none =>
    obtain ⟨registration, events, done⟩ :=
      register_of_new directory now session invoke options found
    simp [done]
  | some entry =>
    constructor
    · rintro ⟨answer, done⟩
      simp only [register, found] at done
      split at done
      · rename_i both
        obtain ⟨shared, same⟩ := Bool.and_eq_true_iff.mp both
        exact .inr ⟨entry, rfl, shared, eq_of_beq same⟩
      · cases done
    · rintro (none | ⟨other, held, shared, same⟩)
      · cases none
      · obtain rfl := Option.some.inj held
        obtain ⟨registration, events, done⟩ := register_of_shared now session options found shared same
        exact ⟨_, done⟩

/-- New ids are searched for until they are found, so there must be as many as are needed. -/
def HasRoom (directory : Directory) (pattern : Pattern) : Prop :=
  directory.usedIds.length + (if (directory.entryOf? pattern).isSome then 1 else 2) ≤ maxId

theorem wellFormed_register (wellFormed : directory.WellFormed) {now : Time} {session : Nat}
    {pattern : Pattern} {invoke : InvocationPolicy} {options : Dict} {registration : Registration}
    {events : List Event} (room : directory.HasRoom pattern)
    (done : directory.register now session pattern invoke options =
      .ok (registration, events, later)) : later.WellFormed := by
  have consistent := wellFormed.toConsistent
  rcases (register_eq_ok_iff directory now session pattern invoke options).mp ⟨_, done⟩ with
    new | ⟨entry, found, shared, same⟩
  · obtain ⟨_, _, made⟩ := register_of_new directory now session invoke options new
    rw [made] at done
    obtain ⟨-, -, rfl⟩ := done
    simp only [HasRoom, new, Option.isSome_none, Bool.false_eq_true, if_false] at room
    have fits : directory.usedIds.length < maxId := by omega
    have unused := (consistent.allocate fits).2
    have grown : (directory.opened (directory.opening now pattern invoke)).usedIds.length =
        directory.usedIds.length + 1 := by
      rw [(usedIds_opened unused).length_eq, List.length_append, List.length_singleton]
    apply wellFormed_join (consistent_opened consistent fits (consistent.entryOf?_eq_none_iff.mp new))
    · omega
    · rw [entry_opened, if_pos rfl]
    · intro id other held apart
      rw [entry_opened, if_neg fun same => apart same.symm] at held
      exact ⟨wellFormed.inhabited id other held, wellFormed.single id other held⟩
    · intro _
      rfl
  · obtain ⟨held, -⟩ := consistent.entryOf?_eq_some_iff.mp found
    obtain ⟨_, _, made⟩ := register_of_shared now session options found shared same
    rw [made] at done
    obtain ⟨-, -, rfl⟩ := done
    simp only [HasRoom, found, Option.isSome_some, if_true] at room
    apply wellFormed_join consistent (by omega) held
    · intro id other held _
      exact ⟨wellFormed.inhabited id other held, wellFormed.single id other held⟩
    · intro single
      simp [single, InvocationPolicy.isShared] at shared

def deprived (directory : Directory) (id : Nat) (registration : Registration) : Directory :=
  { directory.updateEntry registration.entry (·.remove id) with
    registrations := directory.registrations.erase id }

section Removal

variable {id : Nat} {registration : Registration}

theorem entry_deprived {other : Nat} {after : Entry} :
    entry? (directory.deprived id registration) other = some after ↔
      ∃ before, directory.entry? other = some before ∧
        after = if other = registration.entry then before.remove id else before :=
  entry_updateEntry

theorem registration_deprived {other : Nat} {live : Registration} :
    (directory.deprived id registration).registration? other = some live ↔
      id ≠ other ∧ directory.registration? other = some live := by
  have erased := Keyed.find?_erase directory.registrations id other
  rw [registration?, deprived, erased]
  by_cases here : id = other <;> simp [here, registration?]

theorem usedIds_deprived (directory : Directory) (id : Nat) (registration : Registration) :
    (directory.deprived id registration).usedIds.Sublist directory.usedIds := by
  rw [usedIds, deprived, updateEntry, Keyed.keys_map, Keyed.keys_erase]
  exact (List.Sublist.refl _).append List.filter_sublist

theorem members_remove {entry : Entry} (distinct : entry.members.Nodup) (id : Nat) :
    (entry.remove id).members = entry.members.filter fun other => other ≠ id := by
  simp only [Entry.remove, distinct.erase_eq_filter]
  apply List.filter_congr
  intro other _
  by_cases same : other = id <;> simp [same]

theorem cursor_remove {entry : Entry} (bound : entry.cursor ≤ entry.members.length)
    (member : id ∈ entry.members) :
    (entry.remove id).cursor ≤ (entry.remove id).members.length := by
  have place := List.idxOf_lt_length_of_mem member
  have length := List.length_erase_of_mem member
  simp only [Entry.remove, length]
  split <;> omega

theorem consistent_deprived (consistent : directory.Consistent)
    (live : directory.registration? id = some registration) :
    (directory.deprived id registration).Consistent := by
  have internal := internal_remove id
  have used := usedIds_deprived directory id registration
  have joins {other : Nat} {entry : Entry} (held : directory.entry? other = some entry) :
      id ∈ entry.members ↔ registration.entry = other := by
    rw [consistent.mem_members held]
    simp [live]
  exact
    { named := internal.named consistent registration.entry
      entryId := fun other after found => internal.entryId consistent found
      registrationId := by
        intro other also found
        exact consistent.registrationId other also (registration_deprived.mp found).2
      distinct := consistent.distinct.sublist used
      valid := fun other member => consistent.valid other (used.subset member)
      next := consistent.next
      members := by
        intro other after found
        obtain ⟨before, held, rfl⟩ := entry_deprived.mp found
        have members := consistent.members other before held
        have pointing : pointingTo (directory.deprived id registration).registrations other =
            before.members.filter fun other => other ≠ id := by
          rw [members]
          exact pointingTo_erase _ _ _
        rw [pointing]
        by_cases here : other = registration.entry
        · rw [if_pos here, members_remove (consistent.nodup_members held)]
        · rw [if_neg here, eq_comm, List.filter_eq_self]
          intro member inside
          have apart : member ≠ id := by
            rintro rfl
            exact here ((joins held).mp inside).symm
          simpa using apart
      pointers := fun other also found =>
        internal.pointers consistent registration.entry (registration_deprived.mp found).2
      cursor := by
        intro other after found
        obtain ⟨before, held, rfl⟩ := entry_deprived.mp found
        have bound := consistent.cursor other before held
        by_cases here : other = registration.entry
        · rw [if_pos here]
          exact cursor_remove bound ((joins held).mpr here.symm)
        · rw [if_neg here]
          exact bound }

theorem entry_drop {pattern : Pattern} {other : Nat} {entry : Entry} :
    entry? (directory.drop pattern id) other = some entry ↔
      id ≠ other ∧ directory.entry? other = some entry := by
  have erased := Keyed.find?_erase directory.entries id other
  rw [drop, entry?, erased]
  by_cases here : id = other <;> simp [here, entry?]

theorem usedIds_drop (directory : Directory) (pattern : Pattern) (id : Nat) :
    (directory.drop pattern id).usedIds.Sublist directory.usedIds := by
  rw [usedIds, drop, Keyed.keys_erase]
  exact List.filter_sublist.append (List.Sublist.refl _)

theorem consistent_drop (consistent : directory.Consistent) {entry : Entry}
    (held : directory.entry? id = some entry) (empty : entry.members = []) :
    (directory.drop entry.pattern id).Consistent := by
  have used := usedIds_drop directory entry.pattern id
  have names : (directory.drop entry.pattern id).names = directory.names.erase entry.pattern :=
    if_pos ((consistent.named _ _).mpr ⟨entry, held, rfl⟩)
  exact
    { named := by
        intro pattern other
        rw [names, Keyed.find?_erase]
        constructor
        · intro named
          split at named
          · cases named
          · rename_i apart
            obtain ⟨also, found, same⟩ := (consistent.named _ _).mp named
            refine ⟨also, entry_drop.mpr ⟨?_, found⟩, same⟩
            rintro rfl
            obtain rfl := Option.some.inj (held.symm.trans found)
            exact apart same
        · rintro ⟨also, found, rfl⟩
          obtain ⟨apart, found⟩ := entry_drop.mp found
          rw [if_neg fun same => apart (consistent.entry_eq_of_pattern held found same)]
          exact (consistent.named _ _).mpr ⟨also, found, rfl⟩
      entryId := fun other also found => consistent.entryId other also (entry_drop.mp found).2
      registrationId := consistent.registrationId
      distinct := consistent.distinct.sublist used
      valid := fun other member => consistent.valid other (used.subset member)
      next := consistent.next
      members := fun other also found => consistent.members other also (entry_drop.mp found).2
      pointers := by
        intro other live registered
        obtain ⟨also, found, same⟩ := consistent.pointers other live registered
        refine ⟨also, entry_drop.mpr ⟨?_, found⟩, same⟩
        rintro rfl
        obtain rfl := Option.some.inj (held.symm.trans found)
        have member := (consistent.mem_members held).mpr ⟨live, registered, rfl⟩
        rw [empty] at member
        cases member
      cursor := fun other also found => consistent.cursor other also (entry_drop.mp found).2 }

theorem unregister_eq_ok {events : List Event}
    (done : directory.unregister id = .ok (registration, events, later)) :
    directory.registration? id = some registration ∧
      later = if Option.all (fun entry : Entry => entry.members.isEmpty)
          ( entry? (directory.deprived id registration) registration.entry) = true then
        (directory.deprived id registration).drop registration.pattern registration.entry
      else directory.deprived id registration := by
  cases live : directory.registration? id with
  | none => simp [unregister, live] at done
  | some found =>
    simp only [unregister, live] at done
    split at done
    · rename_i empty
      obtain ⟨rfl, -, rfl⟩ := done
      exact ⟨rfl, (if_pos empty).symm⟩
    · rename_i some
      obtain ⟨rfl, -, rfl⟩ := done
      exact ⟨rfl, (if_neg some).symm⟩

theorem unregister_cases (consistent : directory.Consistent) {events : List Event}
    (done : directory.unregister id = .ok (registration, events, later)) :
    directory.registration? id = some registration ∧
      ∃ entry, entry? (directory.deprived id registration) registration.entry = some entry ∧
        (entry.members = [] ∧
            later = (directory.deprived id registration).drop entry.pattern registration.entry ∨
          entry.members ≠ [] ∧ later = directory.deprived id registration) := by
  obtain ⟨live, changed⟩ := unregister_eq_ok done
  obtain ⟨entry, left, same⟩ := (internal_remove id).pointers consistent registration.entry live
  have left : entry? (directory.deprived id registration) registration.entry = some entry := left
  refine ⟨live, entry, left, ?_⟩
  simp only [left, Option.all_some, List.isEmpty_iff, ← same] at changed
  by_cases empty : entry.members = []
  · exact .inl ⟨empty, by rw [changed, if_pos empty]⟩
  · exact .inr ⟨empty, by rw [changed, if_neg empty]⟩

theorem inhabited_deprived (wellFormed : directory.WellFormed) {other : Nat} {after : Entry}
    (found : entry? (directory.deprived id registration) other = some after)
    (apart : other ≠ registration.entry) : after.members ≠ [] := by
  obtain ⟨before, held, rfl⟩ := entry_deprived.mp found
  rw [if_neg apart]
  exact wellFormed.inhabited other before held

theorem single_deprived (wellFormed : directory.WellFormed)
    (live : directory.registration? id = some registration) {other : Nat} {after : Entry}
    (found : entry? (directory.deprived id registration) other = some after)
    (some : after.members ≠ []) : after.invoke = .single → after.members.length = 1 := by
  obtain ⟨before, held, rfl⟩ := entry_deprived.mp found
  intro invoke
  by_cases here : other = registration.entry
  · rw [if_pos here] at invoke some
    have alone := wellFormed.single other before held invoke
    have member := (wellFormed.toConsistent.mem_members held).mpr ⟨registration, live, here.symm⟩
    have length := List.length_erase_of_mem member
    rw [alone] at length
    exact absurd (List.length_eq_zero_iff.mp length) some
  · rw [if_neg here] at invoke ⊢
    exact wellFormed.single other before held invoke

theorem wellFormed_unregister (wellFormed : directory.WellFormed) {events : List Event}
    (done : directory.unregister id = .ok (registration, events, later)) : later.WellFormed := by
  obtain ⟨live, entry, left, cases⟩ := unregister_cases wellFormed.toConsistent done
  have consistent := consistent_deprived wellFormed.toConsistent live
  rcases cases with ⟨empty, rfl⟩ | ⟨some, rfl⟩
  · have inhabited {other : Nat} {also : Entry}
        (found : entry? ((directory.deprived id registration).drop entry.pattern
          registration.entry) other = Option.some also) : also.members ≠ [] := by
      obtain ⟨apart, found⟩ := entry_drop.mp found
      exact inhabited_deprived wellFormed found fun same => apart same.symm
    exact
      { toConsistent := consistent_drop consistent left empty
        inhabited := fun other also found => inhabited found
        single := fun other also found =>
          single_deprived wellFormed live (entry_drop.mp found).2 (inhabited found) }
  · have inhabited (other : Nat) (also : Entry)
        (found : entry? (directory.deprived id registration) other = Option.some also) :
        also.members ≠ [] := by
      by_cases here : other = registration.entry
      · rw [here] at found
        obtain rfl := Option.some.inj (left.symm.trans found)
        exact some
      · exact inhabited_deprived wellFormed found here
    exact
      { toConsistent := consistent
        inhabited
        single := fun other also found =>
          single_deprived wellFormed live found (inhabited other also found) }

end Removal

theorem unregisterAll_preserves (holds : Directory → Prop) (start : holds directory)
    (kept : ∀ {before after : Directory} {id : Nat} {registration : Registration}
      {events : List Event}, holds before →
        before.unregister id = .ok (registration, events, after) → holds after)
    (ids : List Nat) : holds (unregisterAll ids directory).2 := by
  induction ids generalizing directory with
  | nil => exact start
  | cons id ids ih =>
    cases done : directory.unregister id with
    | error refusal =>
      simp only [unregisterAll, done]
      exact ih start
    | ok answer =>
      obtain ⟨registration, events, between⟩ := answer
      simp only [unregisterAll, done]
      exact ih (kept start done)

theorem wellFormed_unregisterAll (wellFormed : directory.WellFormed) (ids : List Nat) :
    (unregisterAll ids directory).2.WellFormed :=
  unregisterAll_preserves WellFormed wellFormed (fun kept done => wellFormed_unregister kept done) ids

theorem cursor_advance {entry : Entry} (some : entry.members ≠ [])
    (bound : entry.cursor ≤ entry.members.length) :
    entry.advance.cursor ≤ entry.members.length := by
  have positive := List.length_pos_of_ne_nil some
  cases invoke : entry.invoke with
  | roundRobin =>
    simp only [Entry.advance, invoke]
    exact Nat.le_of_lt (Nat.mod_lt _ positive)
  | _ => simpa [Entry.advance, invoke] using bound

theorem wellFormed_advance (wellFormed : directory.WellFormed) (id : Nat) :
    (directory.updateEntry id (·.advance)).WellFormed := by
  have internal := internal_advance
  have used := usedIds_updateEntry directory id (·.advance)
  have unmoved {other : Nat} {after : Entry}
      (found : entry? (directory.updateEntry id (·.advance)) other = some after) :
      ∃ before, directory.entry? other = some before ∧ after.members = before.members ∧
        after.invoke = before.invoke ∧ after.cursor ≤ after.members.length := by
    obtain ⟨before, held, rfl⟩ := entry_updateEntry.mp found
    have bound := wellFormed.cursor other before held
    refine ⟨before, held, ?_⟩
    split
    · have members : before.advance.members = before.members := by rw [advance_eq]
      rw [members]
      exact ⟨rfl, internal.invoke before,
        cursor_advance (wellFormed.inhabited other before held) bound⟩
    · exact ⟨rfl, rfl, bound⟩
  exact
    { named := internal.named wellFormed.toConsistent id
      entryId := fun other after found => internal.entryId wellFormed.toConsistent found
      registrationId := wellFormed.registrationId
      distinct := used ▸ wellFormed.distinct
      valid := used ▸ wellFormed.valid
      next := wellFormed.next
      members := by
        intro other after found
        obtain ⟨before, held, same, -⟩ := unmoved found
        exact same.trans (wellFormed.members other before held)
      pointers := fun other live found => internal.pointers wellFormed.toConsistent id found
      cursor := by
        intro other after found
        obtain ⟨before, held, -, -, bound⟩ := unmoved found
        exact bound
      inhabited := by
        intro other after found
        obtain ⟨before, held, same, -⟩ := unmoved found
        rw [same]
        exact wellFormed.inhabited other before held
      single := by
        intro other after found invoke
        obtain ⟨before, held, same, agree, -⟩ := unmoved found
        rw [same]
        exact wellFormed.single other before held (agree.symm.trans invoke) }

end CallRouter.Registration.Directory
