import CallRouter.Proofs.Pattern
import CallRouter.Proofs.Registration.Allocation
import CallRouter.Proofs.Registration.Lookup

namespace CallRouter.Registration.Directory

variable {directory : Directory} {uri : String}

structure Serves (directory : Directory) (uri : String) (entry : Entry) : Prop where
  live : directory.entry? entry.id = some entry
  matching : entry.pattern.Matches uri

def livePatterns (directory : Directory) : Set Pattern :=
  {pattern | ∃ entry, directory.entry? entry.id = some entry ∧ entry.pattern = pattern}

theorem preferred_of_narrowest {entries : List Entry} {entry : Entry}
    (found : narrowest entries = some entry) :
    ∀ other ∈ entries, entry.pattern.preference ≤ other.pattern.preference := by
  induction entries generalizing entry with
  | nil => cases found
  | cons first rest ih =>
    simp only [narrowest] at found
    rw [List.forall_mem_cons]
    cases chosen : narrowest rest with
    | none =>
      simp only [chosen] at found
      obtain rfl := Option.some.inj found
      have last : rest = [] := by
        by_contra more
        obtain ⟨other, chosenAlso⟩ := narrowest_exists more
        cases chosen.symm.trans chosenAlso
      simp [last]
    | some other =>
      simp only [chosen, Pattern.narrower_iff] at found
      have least := ih chosen
      split at found
      · rename_i narrower
        obtain rfl := Option.some.inj found
        exact ⟨le_of_lt narrower, least⟩
      · rename_i wider
        obtain rfl := Option.some.inj found
        exact ⟨le_refl _, fun also member => (not_lt.mp wider).trans (least also member)⟩

namespace Consistent

variable (consistent : directory.Consistent)

include consistent

theorem mem_entries {entry : Entry} : entry ∈ directory.names.values.filterMap directory.entry? ↔
    directory.entry? entry.id = some entry := by
  rw [List.mem_filterMap]
  constructor
  · rintro ⟨id, -, held⟩
    rwa [consistent.entryId id entry held]
  · intro held
    have named := (consistent.named entry.pattern entry.id).mpr ⟨entry, held, rfl⟩
    exact ⟨entry.id, List.mem_map_of_mem (f := (·.2)) ((Keyed.find?_eq_some_iff _).mp named), held⟩

theorem eq_of_pattern {entry other : Entry} (live : directory.entry? entry.id = some entry)
    (also : directory.entry? other.id = some other) (same : entry.pattern = other.pattern) :
    entry = other := by
  have agree := consistent.entry_eq_of_pattern live also same
  rw [agree, also] at live
  exact (Option.some.inj live).symm

theorem preference_lt {entry other : Entry} (serves : directory.Serves uri entry)
    (also : directory.Serves uri other) (apart : other ≠ entry)
    (preferred : entry.pattern.preference ≤ other.pattern.preference) :
    entry.pattern.preference < other.pattern.preference := by
  apply lt_of_le_of_ne preferred
  intro alike
  apply apart
  apply consistent.eq_of_pattern also.live serves.live
  exact (Pattern.eq_of_preference serves.matching also.matching alike).symm

theorem narrowest_eq_some_iff {entries : List Entry}
    (all : ∀ entry, entry ∈ entries ↔ directory.entry? entry.id = some entry) {entry : Entry} :
    narrowest (entries.filter fun entry => entry.pattern.covers uri) = some entry ↔
      directory.Serves uri entry ∧ ∀ other, directory.Serves uri other → other ≠ entry →
        entry.pattern.preference < other.pattern.preference := by
  have candidate (other : Entry) :
      other ∈ entries.filter (fun entry => entry.pattern.covers uri) ↔
        directory.Serves uri other := by
    rw [List.mem_filter, all, Pattern.covers_iff]
    exact ⟨fun both => ⟨both.1, both.2⟩, fun serves => ⟨serves.live, serves.matching⟩⟩
  constructor
  · intro found
    have serves := (candidate entry).mp (narrowest_mem found)
    refine ⟨serves, ?_⟩
    intro other also apart
    exact consistent.preference_lt serves also apart
      (preferred_of_narrowest found other ((candidate other).mpr also))
  · rintro ⟨serves, first⟩
    obtain ⟨chosen, found⟩ := narrowest_exists (List.ne_nil_of_mem ((candidate entry).mpr serves))
    by_cases same : chosen = entry
    · rw [found, same]
    · have serving := (candidate chosen).mp (narrowest_mem found)
      have preferred := preferred_of_narrowest found entry ((candidate entry).mpr serves)
      exact absurd preferred (not_le_of_gt (first chosen serving same))

theorem mem_livePatterns {pattern : Pattern} :
    pattern ∈ directory.livePatterns ↔ pattern ∈ directory.names.keys := by
  rw [Keyed.mem_keys_iff]
  constructor
  · rintro ⟨entry, live, rfl⟩
    exact ⟨entry.id, (consistent.named _ _).mpr ⟨entry, live, rfl⟩⟩
  · rintro ⟨id, named⟩
    obtain ⟨entry, held, same⟩ := (consistent.named _ _).mp named
    exact ⟨entry, consistent.entryId id entry held ▸ held, same⟩

theorem lookup_eq_none_iff : directory.lookup uri = none ↔
    ∀ entry, ¬ directory.Serves uri entry := by
  constructor
  · rintro none entry ⟨live, matching⟩
    obtain ⟨other, found⟩ := consistent.lookup_exists live ((Pattern.covers_iff _ _).mpr matching)
    cases none.symm.trans found
  · intro unserved
    rw [Option.eq_none_iff_forall_ne_some]
    intro entry found
    obtain ⟨⟨id, held⟩, covers⟩ := covers_of_lookup found
    have live := consistent.entryId id entry held ▸ held
    exact unserved entry ⟨live, (Pattern.covers_iff _ _).mp covers⟩

theorem pattern_of_lookup {other : Directory} (also : other.Consistent)
    (same : directory.livePatterns = other.livePatterns) {entry : Entry}
    (found : directory.lookup uri = some entry) :
    ∃ counterpart, other.lookup uri = some counterpart ∧ counterpart.pattern = entry.pattern := by
  have transfer {here there : Directory} (alike : here.livePatterns = there.livePatterns)
      {entry : Entry} (serves : here.Serves uri entry) :
      ∃ counterpart, there.Serves uri counterpart ∧ counterpart.pattern = entry.pattern := by
    have inside : entry.pattern ∈ there.livePatterns := alike ▸ ⟨entry, serves.live, rfl⟩
    obtain ⟨counterpart, live, agree⟩ := inside
    exact ⟨counterpart, ⟨live, agree.symm ▸ serves.matching⟩, agree⟩
  obtain ⟨serves, first⟩ :=
    (consistent.narrowest_eq_some_iff fun _ => consistent.mem_entries).mp found
  obtain ⟨counterpart, serving, agree⟩ := transfer same serves
  refine ⟨counterpart, ?_, agree⟩
  apply (also.narrowest_eq_some_iff fun _ => also.mem_entries).mpr
  refine ⟨serving, ?_⟩
  intro rival rivals apart
  obtain ⟨image, served, alike⟩ := transfer same.symm rivals
  rw [agree, ← alike]
  apply first image served
  rintro rfl
  exact apart (also.eq_of_pattern rivals.live serving.live (alike.symm.trans agree.symm))

end Consistent

/--
A URI is served by the live entry that matches it and to which no other one that does is preferred,
and by none exactly if none matches. Neither the order in which the entries are looked through nor
the way in which the directory came about plays a part, only the patterns that are live.
-/
theorem lookup_finds_narrowest (reachable : Reachable directory) (uri : String) :
    (∀ entry, directory.lookup uri = some entry ↔
      directory.Serves uri entry ∧ ∀ other, directory.Serves uri other → other ≠ entry →
        ¬ other.pattern.preference < entry.pattern.preference) ∧
    (directory.lookup uri = none ↔ ∀ entry, ¬ directory.Serves uri entry) ∧
    (∀ entries : List Entry,
      (∀ entry, entry ∈ entries ↔ directory.entry? entry.id = some entry) →
        narrowest (entries.filter fun entry => entry.pattern.covers uri) =
          directory.lookup uri) ∧
    ∀ other, Reachable other → directory.livePatterns = other.livePatterns →
      (directory.lookup uri).map (·.pattern) = (other.lookup uri).map (·.pattern) := by
  have consistent := (wellFormed_of_reachable reachable).toConsistent
  have listed : ∀ entry, entry ∈ directory.names.values.filterMap directory.entry? ↔
      directory.entry? entry.id = some entry := fun _ => consistent.mem_entries
  refine ⟨?_, consistent.lookup_eq_none_iff, ?_, ?_⟩
  · intro entry
    apply (consistent.narrowest_eq_some_iff listed).trans
    apply and_congr_right
    intro serves
    refine forall₃_congr fun other also apart => ⟨not_lt_of_gt, ?_⟩
    intro kept
    exact consistent.preference_lt serves also apart (not_lt.mp kept)
  · intro entries all
    apply Option.ext
    intro entry
    rw [consistent.narrowest_eq_some_iff all]
    exact (consistent.narrowest_eq_some_iff listed).symm
  · intro other reachableAlso same
    have also := (wellFormed_of_reachable reachableAlso).toConsistent
    apply Option.ext
    intro pattern
    rw [Option.map_eq_some_iff, Option.map_eq_some_iff]
    constructor
    · rintro ⟨entry, found, rfl⟩
      exact consistent.pattern_of_lookup also same found
    · rintro ⟨entry, found, rfl⟩
      exact also.pattern_of_lookup consistent same.symm found

def overlapping : List Request :=
  [.register 0 1 ⟨.byPrefix, "app"⟩ .single [], .register 0 1 ⟨.wildcard, "..c"⟩ .single [],
    .register 0 2 ⟨.byPrefix, "app.a"⟩ .single [], .register 0 2 ⟨.wildcard, ".x.c"⟩ .single [],
    .register 0 3 ⟨.exact, "app.a.c"⟩ .single [], .closeSession 3]

theorem lookup_finds_narrowest_of_overlapping :
    Reachable (overlapping.foldl apply {}) ∧
    (∃ entry, entry.pattern = ⟨.byPrefix, "app.a"⟩ ∧
      (overlapping.foldl apply {}).Serves "app.a.c" entry ∧
      ∀ other, (overlapping.foldl apply {}).Serves "app.a.c" other → other ≠ entry →
        ¬ other.pattern.preference < entry.pattern.preference) ∧
    (∀ entry, ¬ (overlapping.foldl apply {}).Serves "net" entry) ∧
    ((overlapping.take 4).reverse.foldl apply {}).lookup "net.x.c" ≠ none ∧
    ((overlapping.foldl apply {}).lookup "net.x.c").map (·.pattern) =
      (((overlapping.take 4).reverse.foldl apply {}).lookup "net.x.c").map (·.pattern) := by
  have reachable := reachable_foldl overlapping (by decide)
  have also := reachable_foldl (overlapping.take 4).reverse (by decide)
  have same : (overlapping.foldl apply {}).livePatterns =
      ((overlapping.take 4).reverse.foldl apply {}).livePatterns := by
    apply Set.ext
    intro pattern
    rw [(wellFormed_of_reachable reachable).mem_livePatterns,
      (wellFormed_of_reachable also).mem_livePatterns]
    apply List.Perm.mem_iff
    decide +kernel
  obtain ⟨found, -⟩ := lookup_finds_narrowest reachable "app.a.c"
  obtain ⟨-, unserved, -⟩ := lookup_finds_narrowest reachable "net"
  obtain ⟨-, -, -, alike⟩ := lookup_finds_narrowest reachable "net.x.c"
  refine ⟨reachable, ?_, unserved.mp (by decide +kernel), by decide +kernel, alike _ also same⟩
  have pattern : ((overlapping.foldl apply {}).lookup "app.a.c").map (·.pattern) =
      some ⟨.byPrefix, "app.a"⟩ := by decide +kernel
  obtain ⟨entry, chosen, named⟩ := Option.map_eq_some_iff.mp pattern
  exact ⟨entry, named, (found entry).mp chosen⟩

end CallRouter.Registration.Directory
