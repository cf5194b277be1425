import CallRouter.Proofs.Identifier
import CallRouter.Registration.Directory

namespace CallRouter.Registration.Directory

variable {directory : Directory}

def usedIds (directory : Directory) : List Nat :=
  directory.entries.keys ++ directory.registrations.keys

def pointingTo (registrations : Keyed Nat Registration) (entry : Nat) : List Nat :=
  (registrations.filter fun _ registration => registration.entry == entry).keys

structure Consistent (directory : Directory) : Prop where
  named (pattern : Pattern) (id : Nat) : directory.names.find? pattern = some id ↔
    ∃ entry, directory.entry? id = some entry ∧ entry.pattern = pattern
  entryId (id : Nat) (entry : Entry) : directory.entry? id = some entry → entry.id = id
  registrationId (id : Nat) (registration : Registration) :
    directory.registration? id = some registration → registration.id = id
  distinct : directory.usedIds.Nodup
  valid : ∀ id ∈ directory.usedIds, isValidId id = true
  next : isValidId directory.ids.next = true
  members (id : Nat) (entry : Entry) : directory.entry? id = some entry →
    entry.members = pointingTo directory.registrations id
  pointers (id : Nat) (registration : Registration) :
    directory.registration? id = some registration →
      ∃ entry, directory.entry? registration.entry = some entry ∧
        entry.pattern = registration.pattern
  cursor (id : Nat) (entry : Entry) : directory.entry? id = some entry →
    entry.cursor ≤ entry.members.length

theorem mem_usedIds (directory : Directory) (id : Nat) : id ∈ directory.usedIds ↔
    (∃ entry, directory.entry? id = some entry) ∨
      ∃ registration, directory.registration? id = some registration := by
  rw [usedIds, List.mem_append, Keyed.mem_keys_iff, Keyed.mem_keys_iff]
  rfl

theorem isInUse_iff (directory : Directory) (id : Nat) :
    directory.isInUse id = true ↔ id ∈ directory.usedIds := by
  rw [isInUse, mem_usedIds, Bool.or_eq_true, or_comm, Keyed.contains, Keyed.contains,
    Option.isSome_iff_exists, Option.isSome_iff_exists]
  rfl

theorem mem_pointingTo {registrations : Keyed Nat Registration} {id entry : Nat} :
    id ∈ pointingTo registrations entry ↔
      ∃ registration, registrations.find? id = some registration ∧ registration.entry = entry := by
  simp [pointingTo, Keyed.mem_keys_iff, Keyed.find?_filter]

theorem pointingTo_insert {registrations : Keyed Nat Registration} {id : Nat}
    (new : registrations.find? id = none) (registration : Registration) (entry : Nat) :
    pointingTo (registrations.insert id registration) entry =
      pointingTo registrations entry ++ if registration.entry = entry then [id] else [] := by
  by_cases here : registration.entry = entry <;>
    simp [pointingTo, Keyed.keys, Keyed.filter, Keyed.entries_insert new, here]

theorem pointingTo_erase (registrations : Keyed Nat Registration) (id entry : Nat) :
    pointingTo (registrations.erase id) entry =
      (pointingTo registrations entry).filter fun other => other ≠ id := by
  rw [pointingTo, Keyed.erase, Keyed.filter_filter, pointingTo, ← Keyed.keys_erase, Keyed.erase,
    Keyed.filter_filter]
  congr 2
  funext other registration
  exact Bool.and_comm _ _

theorem entry_updateEntry {id other : Nat} {change : Entry → Entry} {after : Entry} :
    entry? (directory.updateEntry id change) other = some after ↔
      ∃ before, directory.entry? other = some before ∧
        after = if other = id then change before else before := by
  have changed := Keyed.find?_map directory.entries
    (fun key entry => if key = id then change entry else entry) other
  rw [updateEntry, entry?, changed, Option.map_eq_some_iff]
  simp only [eq_comm, entry?]

theorem usedIds_updateEntry (directory : Directory) (id : Nat) (change : Entry → Entry) :
    (directory.updateEntry id change).usedIds = directory.usedIds := by
  rw [usedIds, updateEntry, Keyed.keys_map, usedIds]

namespace Consistent

variable (consistent : directory.Consistent)

include consistent

theorem entryOf?_eq_some_iff {pattern : Pattern} {entry : Entry} :
    directory.entryOf? pattern = some entry ↔
      directory.entry? entry.id = some entry ∧ entry.pattern = pattern := by
  rw [entryOf?, Option.bind_eq_bind, Option.bind_eq_some_iff]
  constructor
  · rintro ⟨id, named, found⟩
    obtain ⟨other, also, pattern⟩ := (consistent.named _ _).mp named
    obtain rfl := Option.some.inj (found.symm.trans also)
    obtain rfl := consistent.entryId id entry found
    exact ⟨found, pattern⟩
  · rintro ⟨found, pattern⟩
    exact ⟨entry.id, (consistent.named _ _).mpr ⟨entry, found, pattern⟩, found⟩

theorem entryOf?_eq_none_iff {pattern : Pattern} :
    directory.entryOf? pattern = none ↔ directory.names.find? pattern = none := by
  rw [Option.eq_none_iff_forall_ne_some, Option.eq_none_iff_forall_ne_some]
  constructor
  · intro none id named
    obtain ⟨entry, found, same⟩ := (consistent.named _ _).mp named
    obtain rfl := consistent.entryId id entry found
    exact none entry (consistent.entryOf?_eq_some_iff.mpr ⟨found, same⟩)
  · intro none entry found
    obtain ⟨found, same⟩ := consistent.entryOf?_eq_some_iff.mp found
    exact none entry.id ((consistent.named _ _).mpr ⟨entry, found, same⟩)

theorem entry_eq_of_pattern {id other : Nat} {entry also : Entry}
    (found : directory.entry? id = some entry) (beside : directory.entry? other = some also)
    (same : entry.pattern = also.pattern) : id = other := by
  have named := (consistent.named _ _).mpr ⟨entry, found, same⟩
  rw [(consistent.named _ _).mpr ⟨also, beside, rfl⟩] at named
  exact (Option.some.inj named).symm

theorem isValidId_of_live {id : Nat} {registration : Registration}
    (live : directory.registration? id = some registration) : isValidId id = true :=
  consistent.valid id ((mem_usedIds _ _).mpr (.inr ⟨registration, live⟩))

theorem mem_members {id registration : Nat} {entry : Entry}
    (found : directory.entry? id = some entry) : registration ∈ entry.members ↔
      ∃ live, directory.registration? registration = some live ∧ live.entry = id := by
  rw [consistent.members id entry found, mem_pointingTo]
  rfl

theorem nodup_members {id : Nat} {entry : Entry} (found : directory.entry? id = some entry) :
    entry.members.Nodup := by
  rw [consistent.members id entry found]
  exact Keyed.distinct _

theorem allocate (room : directory.usedIds.length < maxId) :
    isValidId directory.allocate.1 = true ∧ directory.allocate.1 ∉ directory.usedIds := by
  obtain ⟨id, valid, unused⟩ := exists_free_id room
  have free : directory.isInUse id = false := by
    rw [Bool.eq_false_iff, ne_eq, isInUse_iff]
    exact unused
  have handed := Allocator.allocate_free consistent.next valid free
  refine ⟨Allocator.search_valid consistent.next, ?_⟩
  rw [← isInUse_iff, Bool.not_eq_true]
  exact handed

end Consistent

structure Internal (change : Entry → Entry) : Prop where
  id (entry : Entry) : (change entry).id = entry.id
  pattern (entry : Entry) : (change entry).pattern = entry.pattern
  invoke (entry : Entry) : (change entry).invoke = entry.invoke

theorem internal_add (registration : Nat) : Internal (·.add registration) :=
  ⟨fun _ => rfl, fun _ => rfl, fun _ => rfl⟩

theorem internal_remove (registration : Nat) : Internal (·.remove registration) :=
  ⟨fun _ => rfl, fun _ => rfl, fun _ => rfl⟩

theorem advance_eq (entry : Entry) :
    entry.advance = { entry with cursor := entry.advance.cursor } := by
  unfold Entry.advance
  split <;> rfl

theorem internal_advance : Internal (·.advance) where
  id entry := by rw [advance_eq]
  pattern entry := by rw [advance_eq]
  invoke entry := by rw [advance_eq]

namespace Internal

variable {change : Entry → Entry} (internal : Internal change)

include internal

theorem pattern_eq {id other : Nat} {after : Entry}
    (found : entry? (directory.updateEntry id change) other = some after) :
    ∃ before, directory.entry? other = some before ∧ after.pattern = before.pattern := by
  obtain ⟨before, held, rfl⟩ := entry_updateEntry.mp found
  refine ⟨before, held, ?_⟩
  split
  · exact internal.pattern before
  · rfl

theorem entry_exists (id : Nat) {other : Nat} {before : Entry}
    (held : directory.entry? other = some before) :
    ∃ after, entry? (directory.updateEntry id change) other = some after ∧
      after.pattern = before.pattern := by
  refine ⟨_, entry_updateEntry.mpr ⟨before, held, rfl⟩, ?_⟩
  split
  · exact internal.pattern before
  · rfl

theorem named (consistent : directory.Consistent) (id : Nat) (pattern : Pattern) (other : Nat) :
    directory.names.find? pattern = some other ↔
      ∃ entry, entry? (directory.updateEntry id change) other = some entry ∧
        entry.pattern = pattern := by
  rw [consistent.named]
  constructor
  · rintro ⟨before, held, same⟩
    obtain ⟨after, found, kept⟩ := internal.entry_exists id held
    exact ⟨after, found, kept.trans same⟩
  · rintro ⟨after, found, same⟩
    obtain ⟨before, held, kept⟩ := internal.pattern_eq found
    exact ⟨before, held, kept.symm.trans same⟩

theorem entryId (consistent : directory.Consistent) {id other : Nat} {after : Entry}
    (found : entry? (directory.updateEntry id change) other = some after) : after.id = other := by
  obtain ⟨before, held, rfl⟩ := entry_updateEntry.mp found
  have same := consistent.entryId other before held
  split
  · exact (internal.id before).trans same
  · exact same

theorem pointers (consistent : directory.Consistent) (id : Nat) {other : Nat}
    {registration : Registration}
    (live : directory.registration? other = some registration) :
    ∃ entry, entry? (directory.updateEntry id change) registration.entry = some entry ∧
      entry.pattern = registration.pattern := by
  obtain ⟨before, held, same⟩ := consistent.pointers other registration live
  obtain ⟨after, found, kept⟩ := internal.entry_exists id held
  exact ⟨after, found, kept.trans same⟩

end Internal

end CallRouter.Registration.Directory
