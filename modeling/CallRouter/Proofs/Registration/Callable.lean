import CallRouter.Proofs.Registration.Narrowest
import CallRouter.Proofs.Registration.Reserved

namespace CallRouter.Uri

variable {uri stem : String} {chars : List Char}

structure IsName (name : String) : Prop where
  some : name ≠ ""
  plain : ∀ c ∈ name.toList, c ≠ '.' ∧ c ≠ '#' ∧ Text.isBlank c = false ∧ Text.isControl c = false

theorem isSegmentChar_iff (c : Char) : isSegmentChar c = true ↔
    c ≠ '#' ∧ Text.isBlank c = false ∧ Text.isControl c = false := by
  simp [isSegmentChar, and_comm]

theorem isName_ofList_iff (dotless : '.' ∉ chars) :
    IsName (String.ofList chars) ↔ chars ≠ [] ∧ chars.all isSegmentChar = true := by
  have some : String.ofList chars ≠ "" ↔ chars ≠ [] := by
    rw [Ne, ← String.toList_inj, String.toList_ofList, String.toList_empty]
  have plain : (∀ c ∈ chars, isSegmentChar c = true) ↔ ∀ c ∈ chars,
      c ≠ '.' ∧ c ≠ '#' ∧ Text.isBlank c = false ∧ Text.isControl c = false := by
    refine forall₂_congr fun c member => ?_
    rw [isSegmentChar_iff, and_iff_right (ne_of_mem_of_not_mem member dotless)]
  rw [List.all_eq_true, plain, ← some]
  constructor
  · rintro ⟨some, plain⟩
    rw [String.toList_ofList] at plain
    exact ⟨some, plain⟩
  · rintro ⟨some, plain⟩
    refine ⟨some, ?_⟩
    rwa [String.toList_ofList]

theorem isProcedure_exact_iff_names (uri : String) : isProcedure .exact uri = true ↔
    ∃ names : List String, names ≠ [] ∧ (∀ name ∈ names, IsName name) ∧
      uri = ".".intercalate names := by
  rw [isProcedure_exact_iff]
  constructor
  · intro proper
    refine ⟨(segments uri.toList).map String.ofList, ?_, ?_, ?_⟩
    · simpa using segments_ne_nil uri.toList
    · rw [List.forall_mem_map]
      intro segment member
      exact (isName_ofList_iff (dotless_of_mem member)).mpr (proper segment member)
    · rw [← String.toList_inj, String.toList_intercalate, List.map_map]
      simp [Function.comp_def, intercalate_segments]
  · rintro ⟨names, some, proper, rfl⟩ segment member
    have dotless : ∀ part ∈ names.map String.toList, '.' ∉ part := by
      rw [List.forall_mem_map]
      exact fun name inside dot => ((proper name inside).plain _ dot).1 rfl
    have parts : segments (".".intercalate names).toList = names.map String.toList := by
      rw [String.toList_intercalate]
      exact segments_intercalate (by simpa using some) dotless
    rw [parts] at member
    obtain ⟨name, inside, rfl⟩ := List.mem_map.mp member
    refine (isName_ofList_iff (dotless _ member)).mp ?_
    rw [String.ofList_toList]
    exact proper name inside

theorem segments_append_dot (chars rest : List Char) :
    segments (chars ++ '.' :: rest) = segments chars ++ segments rest := by
  induction chars with
  | nil => simp [segments]
  | cons c chars ih =>
    simp only [List.cons_append, segments, ih]
    by_cases dot : c = '.'
    · simp [dot]
    · simp only [if_neg dot]
      cases parts : segments chars with
      | nil => exact absurd parts (segments_ne_nil chars)
      | cons part others => rfl

theorem segments_dotted (stem : String) :
    segments (stem ++ ".").toList = segments stem.toList ++ [[]] := by
  rw [String.toList_append]
  exact segments_append_dot stem.toList []

theorem isValid_of_isProcedure {policy : MatchPolicy} (proper : isProcedure policy uri = true) :
    isValid uri = true := (Bool.and_eq_true_iff.mp proper).1

theorem exists_last (chars : List Char) :
    ∃ parts last, segments chars = parts ++ [last] :=
  ⟨_, _, (List.dropLast_append_getLast (segments_ne_nil chars)).symm⟩

section

variable {parts : List (List Char)} {last : List Char}
  (split : segments uri.toList = parts ++ [last])

include split in
theorem isProcedure_exact_iff_of_segments : isProcedure .exact uri = true ↔
    isValid uri = true ∧ (∀ part ∈ parts, part ≠ []) ∧ last ≠ [] := by
  simp [isProcedure, split, hasNoEmptySegment]

include split in
theorem isProcedure_byPrefix_iff_of_segments : isProcedure .byPrefix uri = true ↔
    isValid uri = true ∧ (∀ part ∈ parts, part ≠ []) ∧ (last ≠ [] ∨ parts ≠ []) := by
  simp [isProcedure, split, hasNoEmptySegment, List.length_pos_iff]

end

theorem isProcedure_byPrefix_of_exact (proper : isProcedure .exact uri = true) :
    isProcedure .byPrefix uri = true := by
  obtain ⟨parts, last, split⟩ := exists_last uri.toList
  obtain ⟨valid, some, full⟩ := (isProcedure_exact_iff_of_segments split).mp proper
  exact (isProcedure_byPrefix_iff_of_segments split).mpr ⟨valid, some, .inl full⟩

theorem isProcedure_wildcard (uri : String) : isProcedure .wildcard uri = isValid uri :=
  Bool.and_true _

theorem isProcedure_byPrefix_iff (uri : String) : isProcedure .byPrefix uri = true ↔
    isProcedure .exact uri = true ∨
      ∃ stem, isProcedure .exact stem = true ∧ uri = stem ++ "." := by
  constructor
  · intro proper
    obtain ⟨parts, last, split⟩ := exists_last uri.toList
    obtain ⟨valid, some, ends⟩ := (isProcedure_byPrefix_iff_of_segments split).mp proper
    by_cases full : last = []
    · subst full
      have inside : ∀ part ∈ parts, part ∈ segments uri.toList := by
        rw [split]
        exact fun part member => List.mem_append_left _ member
      let stem := String.ofList (['.'].intercalate parts)
      have whole : segments stem.toList = parts := by
        rw [String.toList_ofList]
        exact segments_intercalate (ends.resolve_left (absurd rfl))
          fun part member => dotless_of_mem (inside part member)
      refine .inr ⟨stem, ?_, ?_⟩
      · rw [isProcedure_exact_iff, whole]
        exact fun part member =>
          ⟨some part member, ((isValid_iff uri).mp valid).2 part (inside part member)⟩
      · rw [← String.toList_inj]
        apply segments_injective
        rw [split, segments_dotted, whole]
    · exact .inl ((isProcedure_exact_iff_of_segments split).mpr ⟨valid, some, full⟩)
  · rintro (proper | ⟨stem, proper, rfl⟩)
    · exact isProcedure_byPrefix_of_exact proper
    · have proper := (isProcedure_exact_iff stem).mp proper
      refine (isProcedure_byPrefix_iff_of_segments (segments_dotted stem)).mpr
        ⟨(isValid_iff _).mpr ⟨?_, ?_⟩, fun part member => (proper part member).1,
          .inr (segments_ne_nil _)⟩
      · simp
      · rw [segments_dotted, List.forall_mem_append, List.forall_mem_singleton]
        exact ⟨fun part member => (proper part member).2, rfl⟩

end CallRouter.Uri

namespace CallRouter.Pattern

open Registration (Directory)

variable {uri : String}

/-- The URI that a wildcard pattern covers with its open segments filled. -/
def sample (uri : String) : String :=
  String.ofList (['.'].intercalate ((Uri.segments uri.toList).map filled))

theorem segments_sample (uri : String) :
    Uri.segments (sample uri).toList = (Uri.segments uri.toList).map filled := by
  rw [sample, String.toList_ofList]
  refine Uri.segments_intercalate (by simpa using Uri.segments_ne_nil uri.toList) ?_
  rw [List.forall_mem_map]
  intro part member dot
  rcases mem_filled dot with same | dot
  · exact absurd same (by decide)
  · exact Uri.dotless_of_mem member dot

theorem isProcedure_sample (valid : Uri.isValid uri = true) :
    Uri.isProcedure .exact (sample uri) = true := by
  rw [Uri.isProcedure_exact_iff, segments_sample, List.forall_mem_map]
  intro part member
  refine ⟨filled_ne_nil part, List.all_eq_true.mpr fun c inside => ?_⟩
  rcases mem_filled inside with rfl | inside
  · decide
  · exact List.all_eq_true.mp (((Uri.isValid_iff uri).mp valid).2 part member) c inside

theorem covers_sample (uri : String) : covers ⟨.wildcard, uri⟩ (sample uri) = true := by
  simp only [covers]
  rw [segments_sample, Uri.fits_iff, List.forall₂_map_right_iff, List.forall₂_same]
  exact fun part _ => filled_fits part

theorem exists_called {policy : MatchPolicy} (proper : Uri.isProcedure policy uri = true) :
    ∃ called, Uri.isProcedure .exact called = true ∧ covers ⟨policy, uri⟩ called = true := by
  cases policy with
  | exact => exact ⟨uri, proper, by simp [covers]⟩
  | byPrefix =>
    rcases (Uri.isProcedure_byPrefix_iff uri).mp proper with whole | ⟨stem, whole, rfl⟩
    · exact ⟨uri, whole, (isPrefixOf_iff_append uri uri).mpr ⟨"", by simp⟩⟩
    · refine ⟨stem ++ "." ++ "x", ?_, (isPrefixOf_iff_append _ _).mpr ⟨"x", rfl⟩⟩
      have parts : Uri.segments (stem ++ "." ++ "x").toList =
          Uri.segments stem.toList ++ [['x']] := by
        rw [String.append_assoc, String.toList_append]
        exact Uri.segments_append_dot stem.toList ['x']
      rw [Uri.isProcedure_exact_iff, parts, List.forall_mem_append, List.forall_mem_singleton]
      exact ⟨(Uri.isProcedure_exact_iff stem).mp whole, by decide⟩
  | wildcard =>
    rw [Uri.isProcedure_wildcard] at proper
    exact ⟨sample uri, isProcedure_sample proper, covers_sample uri⟩

/--
The URIs that may be registered under a policy. An exact one joins names by dots, a prefix may have
one more dot, and each policy allows what the narrower ones do. Whatever may be registered covers a
URI that may be called, and as long as it is registered that URI is served.
-/
theorem procedures_are_callable (uri : String) :
    (Uri.isProcedure .exact uri = true ↔ ∃ names : List String, names ≠ [] ∧
      (∀ name ∈ names, Uri.IsName name) ∧ uri = ".".intercalate names) ∧
    (Uri.isProcedure .byPrefix uri = true ↔ Uri.isProcedure .exact uri = true ∨
      ∃ stem, Uri.isProcedure .exact stem = true ∧ uri = stem ++ ".") ∧
    (Uri.isProcedure .exact uri = true → Uri.isProcedure .byPrefix uri = true) ∧
    (Uri.isProcedure .byPrefix uri = true → Uri.isProcedure .wildcard uri = true) ∧
    ∀ policy, Uri.isProcedure policy uri = true →
      ∃ called, Uri.isProcedure .exact called = true ∧ covers ⟨policy, uri⟩ called = true ∧
        ∀ directory, Directory.Reachable directory → ∀ id entry,
          directory.entry? id = some entry → entry.pattern = ⟨policy, uri⟩ →
            ∃ serving, directory.lookup called = some serving := by
  refine ⟨Uri.isProcedure_exact_iff_names uri, Uri.isProcedure_byPrefix_iff uri,
    Uri.isProcedure_byPrefix_of_exact, ?_, fun policy proper => ?_⟩
  · rw [Uri.isProcedure_wildcard]
    exact Uri.isValid_of_isProcedure
  · obtain ⟨called, callable, covering⟩ := exists_called proper
    refine ⟨called, callable, covering, fun directory reachable id entry held pattern => ?_⟩
    have consistent := (Directory.wellFormed_of_reachable reachable).toConsistent
    exact consistent.lookup_exists held (pattern ▸ covering)

theorem procedures_are_callable_of_dotted :
    Uri.isProcedure .exact ".sum." = false ∧ Uri.isProcedure .byPrefix ".sum." = false ∧
      Uri.isProcedure .wildcard ".sum." = true ∧
      ∃ called, Uri.isProcedure .exact called = true ∧
        covers ⟨.wildcard, ".sum."⟩ called = true := by
  obtain ⟨-, -, -, -, callable⟩ := procedures_are_callable ".sum."
  obtain ⟨called, proper, covering, -⟩ := callable .wildcard (by decide)
  exact ⟨by decide, by decide, by decide, called, proper, covering⟩

end CallRouter.Pattern
