import CallRouter.Proofs.Uri
import CallRouter.Registration.Meta
import Mathlib.Data.List.Infix

/-!
Which of the patterns that may be registered cover reserved URIs. Those that are reserved themselves
may not be registered, but a shorter prefix or a wildcard in the first place covers them as well.
-/

namespace CallRouter.Pattern

open Registration

structure IsOpen (pattern : Pattern) : Prop where
  valid : Uri.isProcedure pattern.policy pattern.uri = true
  unreserved : Uri.isReserved pattern.uri = false

structure IsUnserved (metaApi : Bool) (uri : String) : Prop where
  reserved : Uri.isReserved uri = true
  valid : Uri.isProcedure .exact uri = true
  unserved : metaApi = true → MetaProcedure.ofUri? uri = none

/-- Prefixes of the reserved stem, and wildcards for it. -/
def Intrudes (metaApi : Bool) (pattern : Pattern) : Prop :=
  match pattern.policy with
  | .exact => False
  | .byPrefix => pattern.uri ∈ ["w", "wa", "wam", "wamp"]
  | .wildcard => pattern.uri.toList.head? = some '.' ∧
      (metaApi = true → MetaProcedure.ofUri? ("wamp" ++ pattern.uri) = none)

variable {metaApi : Bool} {pattern : Pattern} {uri : String}

theorem segments_reserved (reserved : Uri.isReserved uri = true) :
    ∃ rest, Uri.segments uri.toList = "wamp".toList :: Uri.segments rest := by
  obtain ⟨rest, same⟩ := (Uri.isReserved_iff uri).mp reserved
  refine ⟨rest, ?_⟩
  rw [← same]
  have dotless : '.' ∉ "wamp".toList := by decide
  exact Uri.segments_append dotless rest

theorem uri_of_ofUri? {procedure : MetaProcedure}
    (found : MetaProcedure.ofUri? uri = some procedure) :
    procedure.uri = uri := by
  have same := List.find?_some found
  exact eq_of_beq same

theorem ofUri?_uri (procedure : MetaProcedure) :
    MetaProcedure.ofUri? procedure.uri = some procedure := by
  cases procedure <;> decide

theorem segments_uri (procedure : MetaProcedure) {segment : List Char}
    (member : segment ∈ Uri.segments procedure.uri.toList) : segment ≠ [] ∧ segment ≠ ['x'] := by
  have all : ∀ segment ∈ Uri.segments procedure.uri.toList, segment ≠ [] ∧ segment ≠ ['x'] := by
    cases procedure <;> decide
  exact all segment member

theorem prefix_intrudes (isOpen : pattern.IsOpen) (policy : pattern.policy = .byPrefix)
    (reserved : Uri.isReserved uri = true) (covers : pattern.covers uri = true) :
    pattern.uri ∈ ["w", "wa", "wam", "wamp"] := by
  have stem := (Uri.isReserved_iff uri).mp reserved
  have starts : pattern.uri.toList <+: uri.toList := by
    simpa [Pattern.covers, policy] using covers
  rcases List.prefix_or_prefix_of_prefix starts stem with shorter | longer
  · have some : pattern.uri.toList ≠ [] := by
      have valid := isOpen.valid
      rw [Uri.isProcedure, Bool.and_eq_true, Uri.isValid_iff] at valid
      exact valid.1.1
    have proper : pattern.uri.toList ≠ Uri.reservedStem := by
      intro same
      have reserved := (Uri.isReserved_iff pattern.uri).mpr (same ▸ List.prefix_refl _)
      rw [isOpen.unreserved] at reserved
      cases reserved
    have listed := (List.mem_inits _ _).mpr shorter
    have inits : Uri.reservedStem.inits = [[], "w".toList, "wa".toList, "wam".toList, "wamp".toList,
        Uri.reservedStem] := by decide
    rw [inits] at listed
    simp only [List.mem_cons, some, proper, String.toList_inj, List.not_mem_nil, false_or,
      or_false] at listed
    simpa using listed
  · have reserved := (Uri.isReserved_iff pattern.uri).mpr longer
    rw [isOpen.unreserved] at reserved
    cases reserved

theorem wildcard_intrudes (isOpen : pattern.IsOpen) (policy : pattern.policy = .wildcard)
    (unserved : IsUnserved metaApi uri) (covers : pattern.covers uri = true) :
    pattern.uri.toList.head? = some '.' ∧
      (metaApi = true → MetaProcedure.ofUri? ("wamp" ++ pattern.uri) = none) := by
  obtain ⟨rest, split⟩ := segments_reserved unserved.reserved
  have fits : Uri.fits (Uri.segments pattern.uri.toList) (Uri.segments uri.toList) = true := by
    simpa [Pattern.covers, policy] using covers
  rw [split, Uri.fits_iff] at fits
  cases parts : Uri.segments pattern.uri.toList with
  | nil => exact absurd parts (Uri.segments_ne_nil _)
  | cons first others =>
    rw [parts] at fits
    obtain ⟨head, tail⟩ := List.forall₂_cons.mp fits
    cases others with
    | nil => exact absurd (List.forall₂_nil_left_iff.mp tail) (Uri.segments_ne_nil rest)
    | cons next others =>
      obtain ⟨after, same, split'⟩ := Uri.append_of_segments parts
      rcases head with rfl | rfl
      · refine ⟨by rw [same]; rfl, fun offered => ?_⟩
        rw [Option.eq_none_iff_forall_ne_some]
        intro procedure found
        -- The open segment is the only one, so the pattern covers the procedure and nothing else.
        have named : procedure.uri.toList = "wamp".toList ++ '.' :: after := by
          rw [uri_of_ofUri? found, String.toList_append, same]
          rfl
        have whole : Uri.segments procedure.uri.toList = "wamp".toList :: next :: others := by
          rw [named, Uri.segments_append (by decide), split']
        have agree : next :: others = Uri.segments rest := by
          refine Uri.eq_of_fits (fun part member => ?_) tail
          exact (segments_uri procedure (by rw [whole]; exact List.mem_cons_of_mem _ member)).1
        have called : procedure.uri = uri := by
          rw [← String.toList_inj]
          exact Uri.segments_injective (by rw [whole, split, agree])
        have free := unserved.unserved offered
        rw [← called, ofUri?_uri] at free
        cases free
      · have reserved : Uri.isReserved pattern.uri = true :=
          (Uri.isReserved_iff pattern.uri).mpr ⟨after, same.symm⟩
        rw [isOpen.unreserved] at reserved
        cases reserved

def filled (part : List Char) : List Char := if part = [] then ['x'] else part

theorem filled_ne_nil (part : List Char) : filled part ≠ [] := by
  unfold filled
  split
  · exact List.cons_ne_nil _ _
  · assumption

theorem filled_fits (part : List Char) : part = [] ∨ part = filled part := by
  unfold filled
  split
  · exact .inl (by assumption)
  · exact .inr rfl

theorem mem_filled {part : List Char} {c : Char} (member : c ∈ filled part) : c = 'x' ∨ c ∈ part := by
  unfold filled at member
  split at member
  · exact .inl (List.mem_singleton.mp member)
  · exact .inr member

def filling (after : List Char) : List (List Char) :=
  "wamp".toList :: (Uri.segments after).map filled

theorem mem_filling {after part : List Char} :
    part ∈ filling after ↔
      part = "wamp".toList ∨ ∃ before ∈ Uri.segments after, filled before = part := by
  rw [filling, List.mem_cons, List.mem_map]

theorem segments_filling (after : List Char) :
    Uri.segments (['.'].intercalate (filling after)) = filling after := by
  refine Uri.segments_intercalate (List.cons_ne_nil _ _) ?_
  intro part member
  rcases mem_filling.mp member with rfl | ⟨before, inside, rfl⟩
  · decide
  · intro dot
    rcases mem_filled dot with same | dot
    · exact absurd same (by decide)
    · exact Uri.dotless_of_mem inside dot

theorem isReserved_filling (after : List Char) :
    Uri.isReserved (String.ofList (['.'].intercalate (filling after))) = true := by
  rw [Uri.isReserved_iff, String.toList_ofList]
  cases rest : Uri.segments after with
  | nil => exact absurd rest (Uri.segments_ne_nil after)
  | cons next others =>
    refine ⟨['.'].intercalate ((next :: others).map filled), ?_⟩
    simp [filling, rest, Uri.reservedStem]

theorem isProcedure_filling {after : List Char}
    (proper : ∀ part ∈ Uri.segments after, part.all Uri.isSegmentChar = true) :
    Uri.isProcedure .exact (String.ofList (['.'].intercalate (filling after))) = true := by
  rw [Uri.isProcedure_exact_iff, String.toList_ofList, segments_filling]
  intro part member
  rcases mem_filling.mp member with rfl | ⟨before, inside, rfl⟩
  · decide
  · refine ⟨filled_ne_nil before, List.all_eq_true.mpr fun c member => ?_⟩
    rcases mem_filled member with rfl | member
    · decide
    · exact List.all_eq_true.mp (proper before inside) c member

theorem uri_of_segments_filling {after : List Char} (same : pattern.uri.toList = '.' :: after)
    {procedure : MetaProcedure} (whole : Uri.segments procedure.uri.toList = filling after) :
    "wamp" ++ pattern.uri = procedure.uri := by
  -- An open segment was filled with a letter that is no segment of the procedure.
  have closed : ∀ part ∈ Uri.segments after, filled part = part := by
    intro part inside
    have member : filled part ∈ Uri.segments procedure.uri.toList := by
      rw [whole]
      exact mem_filling.mpr (.inr ⟨part, inside, rfl⟩)
    rcases filled_fits part with rfl | same
    · exact absurd rfl (segments_uri procedure member).2
    · exact same.symm
  rw [← String.toList_inj]
  apply Uri.segments_injective
  rw [whole, String.toList_append, same]
  have dotless : '.' ∉ "wamp".toList := by decide
  rw [Uri.segments_append dotless]
  exact congrArg _ ((List.map_congr_left closed).trans (List.map_id' _)).symm

theorem exists_covered (isOpen : pattern.IsOpen) (policy : pattern.policy = .wildcard)
    {after : List Char} (same : pattern.uri.toList = '.' :: after)
    (free : metaApi = true → MetaProcedure.ofUri? ("wamp" ++ pattern.uri) = none) :
    ∃ uri, IsUnserved metaApi uri ∧ pattern.covers uri = true := by
  have parts : Uri.segments pattern.uri.toList = [] :: Uri.segments after := by
    rw [same]
    exact Uri.segments_append List.not_mem_nil after
  have valid := isOpen.valid
  rw [Uri.isProcedure, Bool.and_eq_true, Uri.isValid_iff, parts] at valid
  have proper := fun part inside => valid.1.2 part (List.mem_cons_of_mem _ inside)
  refine ⟨String.ofList (['.'].intercalate (filling after)),
    ⟨isReserved_filling after, isProcedure_filling proper, ?_⟩, ?_⟩
  · intro offered
    rw [Option.eq_none_iff_forall_ne_some]
    intro procedure found
    have whole : Uri.segments procedure.uri.toList = filling after := by
      rw [uri_of_ofUri? found, String.toList_ofList, segments_filling]
    have none := free offered
    rw [uri_of_segments_filling same whole, ofUri?_uri] at none
    cases none
  · simp only [Pattern.covers, policy, String.toList_ofList, segments_filling, parts]
    rw [Uri.fits_iff]
    refine .cons (.inl rfl) ?_
    rw [List.forall₂_map_right_iff, List.forall₂_same]
    exact fun part _ => filled_fits part

theorem intrudes_iff (isOpen : pattern.IsOpen) :
    pattern.Intrudes metaApi ↔ ∃ uri, IsUnserved metaApi uri ∧ pattern.covers uri = true := by
  constructor
  · intro intrudes
    cases policy : pattern.policy with
    | exact => simp [Intrudes, policy] at intrudes
    | byPrefix =>
      simp only [Intrudes, policy] at intrudes
      have unserved : IsUnserved metaApi "wamp.x" := ⟨by decide, by decide, fun _ => by decide⟩
      refine ⟨"wamp.x", unserved, ?_⟩
      simp only [Pattern.covers, policy]
      simp only [List.mem_cons, List.not_mem_nil, or_false] at intrudes
      rcases intrudes with same | same | same | same <;> rw [same] <;> decide
    | wildcard =>
      simp only [Intrudes, policy] at intrudes
      obtain ⟨first, free⟩ := intrudes
      obtain ⟨after, same⟩ := List.head?_eq_some_iff.mp first
      exact exists_covered isOpen policy same free
  · rintro ⟨uri, unserved, covers⟩
    cases policy : pattern.policy with
    | exact =>
      have same : pattern.uri = uri := by simpa [Pattern.covers, policy] using covers
      have reserved := unserved.reserved
      rw [← same, isOpen.unreserved] at reserved
      cases reserved
    | byPrefix =>
      simp only [Intrudes, policy]
      exact prefix_intrudes isOpen policy unserved.reserved covers
    | wildcard =>
      simp only [Intrudes, policy]
      exact wildcard_intrudes isOpen policy unserved covers

end CallRouter.Pattern
