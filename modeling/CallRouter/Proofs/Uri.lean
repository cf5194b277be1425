import CallRouter.Uri
import Mathlib.Data.List.Forall2

namespace CallRouter.Uri

variable {chars segment : List Char}

theorem segments_eq_splitOn (chars : List Char) : segments chars = chars.splitOn '.' := by
  induction chars with
  | nil => rfl
  | cons c rest ih =>
    rw [List.splitOn_cons_eq_if_modifyHead, ← ih]
    by_cases dot : c = '.'
    · simp [segments, dot]
    · simp only [segments, if_neg dot, beq_iff_eq]
      cases parts : segments rest with
      | nil => exact absurd parts (segments_ne_nil rest)
      | cons part others => rfl

theorem segments_append (dotless : '.' ∉ segment) (rest : List Char) :
    segments (segment ++ '.' :: rest) = segment :: segments rest := by
  rw [segments_eq_splitOn, segments_eq_splitOn, List.splitOn_append_cons_self_of_not_mem dotless]

theorem intercalate_segments (chars : List Char) : ['.'].intercalate (segments chars) = chars := by
  rw [segments_eq_splitOn, List.intercalate_splitOn]

theorem segments_intercalate {parts : List (List Char)} (some : parts ≠ [])
    (dotless : ∀ part ∈ parts, '.' ∉ part) : segments (['.'].intercalate parts) = parts := by
  rw [segments_eq_splitOn, List.splitOn_intercalate '.' dotless some]

theorem segments_injective {other : List Char} (same : segments chars = segments other) :
    chars = other := by
  rw [← intercalate_segments chars, same, intercalate_segments]

theorem dotless_of_mem (member : segment ∈ segments chars) : '.' ∉ segment := by
  induction chars generalizing segment with
  | nil =>
    rw [List.mem_singleton.mp member]
    exact List.not_mem_nil
  | cons c rest ih =>
    by_cases dot : c = '.'
    · simp only [segments, if_pos dot] at member
      rcases List.mem_cons.mp member with rfl | later
      · exact List.not_mem_nil
      · exact ih later
    · simp only [segments, if_neg dot] at member
      cases parts : segments rest with
      | nil => exact absurd parts (segments_ne_nil rest)
      | cons part others =>
        simp only [parts] at member
        rcases List.mem_cons.mp member with rfl | later
        · rw [List.mem_cons, not_or]
          exact ⟨fun same => dot same.symm, ih (by simp [parts])⟩
        · exact ih (by simp [parts, later])

theorem append_of_segments {first next : List Char} {others : List (List Char)}
    (split : segments chars = first :: next :: others) :
    ∃ rest, chars = first ++ '.' :: rest ∧ segments rest = next :: others := by
  refine ⟨['.'].intercalate (next :: others), ?_, ?_⟩
  · rw [← intercalate_segments chars, split, List.intercalate_cons_cons, List.append_assoc]
    rfl
  · apply segments_intercalate (List.cons_ne_nil _ _)
    intro part member
    have inside : part ∈ segments chars := by
      rw [split]
      exact List.mem_cons_of_mem _ member
    exact dotless_of_mem inside

theorem isValid_iff (uri : String) : isValid uri = true ↔
    uri.toList ≠ [] ∧ ∀ segment ∈ segments uri.toList, segment.all isSegmentChar = true := by
  simp [isValid]

theorem isProcedure_exact_iff (uri : String) : isProcedure .exact uri = true ↔
    ∀ segment ∈ segments uri.toList, segment ≠ [] ∧ segment.all isSegmentChar = true := by
  rw [isProcedure, Bool.and_eq_true, isValid_iff]
  simp only [hasNoEmptySegment, List.all_eq_true, Bool.not_eq_true', List.isEmpty_eq_false_iff]
  constructor
  · rintro ⟨⟨_, valid⟩, some⟩ segment member
    exact ⟨some segment member, valid segment member⟩
  · intro both
    refine ⟨⟨?_, fun segment member => (both segment member).2⟩,
      fun segment member => (both segment member).1⟩
    intro empty
    rw [empty] at both
    exact (both [] (List.mem_singleton_self _)).1 rfl

theorem fits_iff (parts others : List (List Char)) : fits parts others = true ↔
    List.Forall₂ (fun part segment => part = [] ∨ part = segment) parts others := by
  induction parts generalizing others with
  | nil => cases others <;> simp [fits]
  | cons part parts ih => cases others <;> simp [fits, ih]

theorem eq_of_fits {parts others : List (List Char)} (some : ∀ part ∈ parts, part ≠ [])
    (fits : List.Forall₂ (fun part segment => part = [] ∨ part = segment) parts others) :
    parts = others := by
  have same : List.Forall₂ (· = ·) parts others := by
    refine List.Forall₂.imp ?_ ((List.forall₂_and_left _ _).mpr ⟨some, fits⟩)
    rintro part segment ⟨some, none | same⟩
    · exact absurd none some
    · exact same
  rwa [List.forall₂_eq_eq_eq] at same

theorem isReserved_iff (uri : String) : isReserved uri = true ↔ reservedStem <+: uri.toList :=
  List.isPrefixOf_iff_prefix

end CallRouter.Uri
