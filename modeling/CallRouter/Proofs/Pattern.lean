import CallRouter.Pattern
import CallRouter.Proofs.Uri
import Mathlib.Data.Prod.Lex
import Mathlib.Data.String.Basic
import Mathlib.Order.OrderDual

/-!
Which URIs a pattern covers, in terms of its text, and the order in which patterns are preferred as a
lexicographic one. That order tells apart any two patterns that cover the same URI.
-/

namespace CallRouter

theorem Dict.keyBefore_iff (a b : List Char) : keyBefore a b = true ↔ a < b := by
  induction a generalizing b with
  | nil => cases b <;> simp [keyBefore]
  | cons first a ih =>
    cases b with
    | nil => simp [keyBefore]
    | cons other b =>
      rw [List.cons_lt_cons_iff, keyBefore]
      by_cases same : first = other
      · simp [same, ih]
      · rw [if_neg same, decide_eq_true_eq, or_iff_left fun both => same both.1]
        rfl

namespace Pattern

variable {a b : Pattern} {uri : String}

def Fills (segment text : List Char) : Prop :=
  if segment = [] then '.' ∉ text else text = segment

inductive Matches : Pattern → String → Prop
  | exact (uri : String) : Matches ⟨.exact, uri⟩ uri
  | byPrefix (stem rest : String) : Matches ⟨.byPrefix, stem⟩ (stem ++ rest)
  | wildcard {stem : String} {texts : List (List Char)}
      (filled : List.Forall₂ Fills (stem.toList.splitOn '.') texts) :
      Matches ⟨.wildcard, stem⟩ (String.ofList (['.'].intercalate texts))

theorem isPrefixOf_iff_append (stem uri : String) :
    stem.toList.isPrefixOf uri.toList = true ↔ ∃ rest, uri = stem ++ rest := by
  rw [List.isPrefixOf_iff_prefix]
  constructor
  · rintro ⟨rest, same⟩
    refine ⟨String.ofList rest, ?_⟩
    rw [← String.toList_inj, String.toList_append, String.toList_ofList, same]
  · rintro ⟨rest, rfl⟩
    rw [String.toList_append]
    exact List.prefix_append _ _

theorem forall₂_fills {segments texts : List (List Char)}
    (dotless : ∀ segment ∈ segments, '.' ∉ segment) :
    List.Forall₂ Fills segments texts ↔
      Uri.fits segments texts = true ∧ ∀ text ∈ texts, '.' ∉ text := by
  induction segments generalizing texts with
  | nil => cases texts <;> simp [Uri.fits]
  | cons segment segments ih =>
    cases texts with
    | nil => simp [Uri.fits]
    | cons text texts =>
      rw [List.forall_mem_cons] at dotless
      have here : Fills segment text ↔
          (segment = [] ∨ segment = text) ∧ '.' ∉ text := by
        by_cases empty : segment = []
        · simp [Fills, empty]
        · simp only [Fills, empty, if_false, false_or]
          constructor
          · rintro rfl
            exact ⟨rfl, dotless.1⟩
          · rintro ⟨rfl, -⟩
            rfl
      rw [List.forall₂_cons, here, ih dotless.2, List.forall_mem_cons, Uri.fits]
      simp only [Bool.and_eq_true, Bool.or_eq_true, List.isEmpty_iff, beq_iff_eq]
      tauto

theorem covers_iff (pattern : Pattern) (uri : String) :
    pattern.covers uri = true ↔ pattern.Matches uri := by
  obtain ⟨policy, stem⟩ := pattern
  cases policy with
  | exact =>
    simp only [covers, beq_iff_eq]
    constructor
    · rintro rfl
      exact .exact _
    · rintro ⟨⟩
      rfl
  | byPrefix =>
    simp only [covers, isPrefixOf_iff_append]
    constructor
    · rintro ⟨rest, rfl⟩
      exact .byPrefix stem rest
    · rintro ⟨⟩
      exact ⟨_, rfl⟩
  | wildcard =>
    have dotless (chars : List Char) : ∀ segment ∈ Uri.segments chars, '.' ∉ segment :=
      fun _ member => Uri.dotless_of_mem member
    simp only [covers]
    constructor
    · intro fits
      rw [← String.ofList_toList (s := uri), ← Uri.intercalate_segments uri.toList]
      apply Matches.wildcard
      rw [← Uri.segments_eq_splitOn, forall₂_fills (dotless _)]
      exact ⟨fits, dotless _⟩
    · intro fills
      cases fills with
      | @wildcard _ texts filled =>
        rw [← Uri.segments_eq_splitOn] at filled
        have some : texts ≠ [] := by
          rintro rfl
          exact Uri.segments_ne_nil _ (List.forall₂_nil_right_iff.mp filled)
        obtain ⟨fits, apart⟩ := (forall₂_fills (dotless _)).mp filled
        rw [String.toList_ofList, Uri.segments_intercalate some apart]
        exact fits

/--
Patterns come in the order of their policies; then, of prefixes, longer ones before shorter ones,
and of wildcard patterns those with more segments that are not empty, and then those with the
smaller text.
-/
def preference (pattern : Pattern) : ℕ ×ₗ ℕᵒᵈ ×ₗ String :=
  match pattern.policy with
  | .exact => toLex (0, toLex (.toDual 0, ""))
  | .byPrefix => toLex (1, toLex (.toDual pattern.uri.length, ""))
  | .wildcard =>
    let segments := pattern.uri.toList.splitOn '.'
    toLex (2, toLex (.toDual (segments.countP fun segment => segment ≠ []), pattern.uri))

theorem concreteSegments_eq (pattern : Pattern) : pattern.concreteSegments =
    (pattern.uri.toList.splitOn '.').countP fun segment => segment ≠ [] := by
  rw [concreteSegments, Uri.segments_eq_splitOn]
  congr 1
  funext segment
  cases segment <;> rfl

theorem narrower_iff (a b : Pattern) : a.narrower b = true ↔ a.preference < b.preference := by
  obtain ⟨policy, uri⟩ := a
  obtain ⟨other, also⟩ := b
  cases policy with
  | exact => cases other <;> simp [narrower, preference, Prod.Lex.toLex_lt_toLex]
  | byPrefix =>
    cases other <;> simp [narrower, preference, Prod.Lex.toLex_lt_toLex, String.length_toList]
  | wildcard =>
    cases other with
    | exact | byPrefix => simp [narrower, preference, Prod.Lex.toLex_lt_toLex]
    | wildcard =>
      simp only [narrower, preference, concreteSegments_eq, Bool.or_eq_true, Bool.and_eq_true,
        decide_eq_true_eq, beq_iff_eq, Dict.keyBefore_iff, ← String.lt_iff_toList_lt,
        Prod.Lex.toLex_lt_toLex, lt_self_iff_false, true_and, false_or,
        OrderDual.toDual_lt_toDual, OrderDual.toDual_inj]
      rw [eq_comm]

theorem eq_of_preference (matching : a.Matches uri) (also : b.Matches uri)
    (alike : a.preference = b.preference) : a = b := by
  cases matching with
  | exact uri =>
    cases also with
    | exact => rfl
    | byPrefix | wildcard => simp [preference] at alike
  | byPrefix stem rest =>
    generalize whole : stem ++ rest = uri at also
    cases also with
    | exact | wildcard => simp [preference] at alike
    | byPrefix other after =>
      have length : stem.length = other.length := by simpa [preference] using alike
      rw [← String.toList_inj, String.toList_append, String.toList_append] at whole
      have same := List.append_inj_left whole (by rwa [String.length_toList, String.length_toList])
      rw [String.toList_inj.mp same]
  | @wildcard stem texts filled =>
    generalize String.ofList (['.'].intercalate texts) = uri at also
    cases also with
    | exact | byPrefix => simp [preference] at alike
    | @wildcard other =>
      have same : stem = other := by
        simp only [preference, toLex_inj, Prod.mk.injEq, true_and] at alike
        exact alike.2
      rw [same]

end Pattern

end CallRouter
