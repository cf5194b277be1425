import CallRouter.Proofs.Message.Valid
import Mathlib.Data.List.Forall2

namespace CallRouter

theorem Json.nat?_eq_some_iff {value : Json} {n : Nat} : value.nat? = some n ↔ value = .ofNat n := by
  constructor
  · intro found
    unfold nat? at found
    split at found
    · split at found
      · rename_i number positive
        cases found
        rw [ofNat, Int.toNat_of_nonneg positive]
      · cases found
    · cases found
  · rintro rfl
    exact nat?_ofNat n

namespace Message

open List (Forall₂)

theorem Kind.eq_of_code {kind other : Kind} (same : Json.ofNat kind.code = .ofNat other.code) :
    kind = other := by
  have codes : kind.code = other.code := by simpa using congrArg Json.nat? same
  simpa [Kind.ofCode?_code] using congrArg Kind.ofCode? codes

def Field.Accepts (field : Field) (value : Json) : Prop := field.type.accepts value = true

def FirstMistyped (variant : List Field) (values : List Json) (field : Field) : Prop :=
  ∃ fields rest before value after,
    variant = fields ++ field :: rest ∧ values = before ++ value :: after ∧
      Forall₂ Field.Accepts fields before ∧ ¬ field.Accepts value

namespace Shape

def Admits (shape : Shape) (values : List Json) : Prop :=
  ∃ variant ∈ shape.variants, Forall₂ Field.Accepts variant values

inductive Misfit (shape : Shape) (values : List Json) : ProtocolError → Prop
  | count (none : ∀ variant ∈ shape.variants, variant.length ≠ values.length) :
    Misfit shape values (.fieldCount shape.kind values.length)
  | type {earlier later : List (List Field)} {variant : List Field} {field : Field}
    (refused : ¬ shape.Admits values) (variants : shape.variants = earlier ++ variant :: later)
    (first : ∀ other ∈ earlier, other.length ≠ values.length)
    (length : variant.length = values.length) (mistyped : FirstMistyped variant values field) :
    Misfit shape values (.fieldType shape.kind field)

theorem mistyped?_eq_none_iff {variant : List Field} {values : List Json}
    (length : variant.length = values.length) :
    mistyped? variant values = none ↔ Forall₂ Field.Accepts variant values := by
  induction variant generalizing values with
  | nil =>
    obtain rfl : values = [] := by simpa using length.symm
    simp [mistyped?]
  | cons field variant ih =>
    obtain _ | ⟨value, values⟩ := values
    · simp at length
    · rw [mistyped?, List.forall₂_cons, ← ih (by simpa using length)]
      by_cases accepts : field.type.accepts value <;> simp [accepts, Field.Accepts]

theorem mistyped?_eq_some_iff {variant : List Field} {values : List Json} {field : Field} :
    mistyped? variant values = some field ↔ FirstMistyped variant values field := by
  constructor
  · intro wrong
    induction variant generalizing values with
    | nil => simp [mistyped?] at wrong
    | cons front variant ih =>
      obtain _ | ⟨value, values⟩ := values
      · simp [mistyped?] at wrong
      rw [mistyped?] at wrong
      by_cases accepts : front.type.accepts value = true
      · rw [if_pos accepts] at wrong
        obtain ⟨fields, rest, before, other, after, rfl, rfl, typed, refused⟩ := ih wrong
        exact ⟨front :: fields, rest, value :: before, other, after, rfl, rfl,
          .cons accepts typed, refused⟩
      · rw [if_neg accepts] at wrong
        cases wrong
        exact ⟨[], variant, [], value, values, rfl, rfl, .nil, accepts⟩
  · rintro ⟨fields, rest, before, value, after, rfl, rfl, typed, refused⟩
    rw [mistyped?_append typed.length_eq ((mistyped?_eq_none_iff typed.length_eq).mpr typed),
      mistyped?, if_neg (show ¬ field.type.accepts value = true from refused)]

theorem validate_eq_ok_iff_admits {shape : Shape} {values : List Json} :
    shape.validate values = .ok () ↔ shape.Admits values := by
  rw [validate_eq_ok_iff]
  constructor
  · rintro ⟨variant, member, length, typed⟩
    exact ⟨variant, member, (mistyped?_eq_none_iff length).mp typed⟩
  · rintro ⟨variant, member, fits⟩
    exact ⟨variant, member, fits.length_eq, (mistyped?_eq_none_iff fits.length_eq).mpr fits⟩

theorem misfit_of_validate {shape : Shape} {values : List Json} {error : ProtocolError}
    (refused : shape.validate values = .error error) : shape.Misfit values error := by
  have no : ¬ shape.Admits values := fun admits => by
    rw [validate_eq_ok_iff_admits.mpr admits] at refused
    cases refused
  unfold validate at refused
  split at refused
  · rename_i none
    cases refused
    exact .count fun variant member => by simpa using List.filter_eq_nil_iff.mp none variant member
  · rename_i variant later fitting
    obtain ⟨earlier, rest, variants, first, length, -⟩ := List.filter_eq_cons_iff.mp fitting
    split at refused
    · cases refused
    · rename_i field wrong
      split at refused <;> cases refused
      exact .type no variants (fun other member => by simpa using first other member)
        (by simpa using length) (mistyped?_eq_some_iff.mp wrong)

theorem Misfit.validate {shape : Shape} {values : List Json} {error : ProtocolError}
    (misfit : shape.Misfit values error) : shape.validate values = .error error := by
  cases misfit with
  | count none =>
    have empty : (shape.variants.filter fun variant => variant.length == values.length) = [] :=
      List.filter_eq_nil_iff.mpr fun variant member => by simpa using none variant member
    rw [Shape.validate, empty]
  | @type earlier later variant field refused variants first length mistyped =>
    -- Whatever error there is names the first variant of that length, and so the same field.
    cases checked : shape.validate values with
    | ok done => exact absurd (validate_eq_ok_iff_admits.mp checked) refused
    | error other =>
      have none : (earlier.filter fun variant => variant.length == values.length) = [] :=
        List.filter_eq_nil_iff.mpr fun other member => by simpa using first other member
      rw [Shape.validate, variants, List.filter_append, none, List.nil_append,
        List.filter_cons_of_pos (by simpa using length)] at checked
      dsimp only at checked
      rw [mistyped?_eq_some_iff.mpr mistyped] at checked
      dsimp only at checked
      split at checked <;> cases checked
      rfl

theorem validate_eq_error_iff {shape : Shape} {values : List Json} {error : ProtocolError} :
    shape.validate values = .error error ↔ shape.Misfit values error :=
  ⟨misfit_of_validate, Misfit.validate⟩

def last? (shapes : List Shape) (kind : Kind) : Option Shape :=
  shapes.reverse.find? fun shape => shape.kind == kind

theorem last?_cons (shape : Shape) (shapes : List Shape) (kind : Kind) :
    last? (shape :: shapes) kind =
      (last? shapes kind).or (if shape.kind = kind then some shape else none) := by
  by_cases same : shape.kind = kind <;>
    simp [last?, List.reverse_cons, List.find?_append, same]

end Shape

inductive Fault (shapes : Kind → Option Shape) : List Json → ProtocolError → Prop
  | missing : Fault shapes [] .notAnArray
  | code {code : Json} {fields : List Json}
    (unusable : ∀ kind : Kind, code = .ofNat kind.code → shapes kind = none) :
    Fault shapes (code :: fields) (.invalidTypeCode code.compact)
  | fields {kind : Kind} {shape : Shape} {fields : List Json} {error : ProtocolError}
    (defined : shapes kind = some shape) (misfit : shape.Misfit fields error) :
    Fault shapes (.ofNat kind.code :: fields) error

namespace Registry

variable {kind : Kind} {fields : List Json}

def ofShapes (shapes : List Shape) : Registry := shapes.foldl define empty

theorem shape?_define (registry : Registry) (shape : Shape) (kind : Kind) :
    (registry.define shape).shape? kind =
      if shape.kind = kind then some shape else registry.shape? kind := by
  by_cases same : shape.kind = kind
  · simp [define, shape?, same]
  · rw [if_neg same, define, shape?, List.find?_cons_of_neg (by simpa using same),
      List.find?_filter]
    congr 1
    funext other
    -- A shape of this kind is not one that the definition replaces.
    by_cases named : other.kind = kind
    · simp [named, Ne.symm same]
    · simp [named]

theorem shape?_foldl (shapes : List Shape) (registry : Registry) (kind : Kind) :
    (shapes.foldl define registry).shape? kind =
      (Shape.last? shapes kind).or (registry.shape? kind) := by
  induction shapes generalizing registry with
  | nil => rfl
  | cons shape shapes ih =>
    rw [List.foldl_cons, ih, shape?_define, Shape.last?_cons, Option.or_assoc]
    by_cases same : shape.kind = kind <;> simp [same]

theorem shape?_ofShapes (shapes : List Shape) :
    (ofShapes shapes).shape? = Shape.last? shapes := by
  funext kind
  rw [ofShapes, shape?_foldl]
  exact Option.or_none

theorem build_of_none {registry : Registry} (unknown : registry.shape? kind = none) :
    registry.build kind fields = .error (.invalidTypeCode (Json.ofNat kind.code).compact) := by
  rw [build, unknown]

theorem build_of_some {registry : Registry} {shape : Shape}
    (known : registry.shape? kind = some shape) :
    registry.build kind fields = (shape.validate fields).map fun _ => ⟨kind, fields⟩ := by
  simp only [build, known]
  cases shape.validate fields <;> rfl

theorem build_eq_ok_iff {registry : Registry} {message : Message} :
    registry.build kind fields = .ok message ↔
      message = ⟨kind, fields⟩ ∧ ∃ shape, registry.shape? kind = some shape ∧ shape.Admits fields := by
  cases known : registry.shape? kind with
  | none => simp [build_of_none known]
  | some shape =>
    rw [build_of_some known]
    simp only [Option.some.injEq, exists_eq_left', ← Shape.validate_eq_ok_iff_admits]
    cases checked : shape.validate fields with
    | error error => simp [Except.map]
    | ok done => simp [Except.map, eq_comm]

theorem build_eq_error_iff {registry : Registry} {error : ProtocolError} :
    registry.build kind fields = .error error ↔
      registry.shape? kind = none ∧ error = .invalidTypeCode (Json.ofNat kind.code).compact ∨
      ∃ shape, registry.shape? kind = some shape ∧ shape.Misfit fields error := by
  cases known : registry.shape? kind with
  | none => simp [build_of_none known, eq_comm]
  | some shape =>
    rw [build_of_some known]
    simp only [reduceCtorEq, false_and, false_or, Option.some.injEq, exists_eq_left',
      ← Shape.validate_eq_error_iff]
    cases shape.validate fields <;> simp [Except.map]

theorem parse_code (registry : Registry) (kind : Kind) (fields : List Json) :
    registry.parse (.ofNat kind.code :: fields) = registry.build kind fields := by
  have code : (Json.ofNat kind.code).nat? >>= Kind.ofCode? >>= registry.shape? =
      registry.shape? kind := by
    rw [Json.nat?_ofNat]
    show Kind.ofCode? kind.code >>= registry.shape? = _
    rw [Kind.ofCode?_code]
    rfl
  simp only [parse, code]
  cases known : registry.shape? kind with
  | none => rw [build_of_none known]
  | some shape =>
    simp only [build, known, kind_of_shape? known]

theorem parse_of_not_code {registry : Registry} {code : Json}
    (unknown : ∀ kind : Kind, code ≠ .ofNat kind.code) (fields : List Json) :
    registry.parse (code :: fields) = .error (.invalidTypeCode code.compact) := by
  have none : code.nat? >>= Kind.ofCode? = none := by
    rw [Option.eq_none_iff_forall_ne_some]
    intro kind found
    obtain ⟨number, is, known⟩ := Option.bind_eq_some_iff.mp found
    refine unknown kind ?_
    rw [Kind.code_of_ofCode? known]
    exact Json.nat?_eq_some_iff.mp is
  rw [parse, none]
  rfl

theorem parse_eq_ok_iff {registry : Registry} {raw : List Json} {message : Message} :
    registry.parse raw = .ok message ↔ raw = message.raw ∧
      ∃ shape, registry.shape? message.kind = some shape ∧ shape.Admits message.fields := by
  constructor
  · intro parsed
    obtain _ | ⟨code, fields⟩ := raw
    · cases parsed
    by_cases known : ∃ kind : Kind, code = .ofNat kind.code
    · obtain ⟨kind, rfl⟩ := known
      rw [parse_code, build_eq_ok_iff] at parsed
      obtain ⟨rfl, shape, defined, admits⟩ := parsed
      exact ⟨rfl, shape, defined, admits⟩
    · rw [parse_of_not_code (not_exists.mp known)] at parsed
      cases parsed
  · rintro ⟨rfl, shape, defined, admits⟩
    rw [raw, parse_code, build_eq_ok_iff]
    exact ⟨rfl, shape, defined, admits⟩

theorem parse_eq_error_iff {registry : Registry} {raw : List Json} {error : ProtocolError} :
    registry.parse raw = .error error ↔ Fault registry.shape? raw error := by
  constructor
  · intro refused
    obtain _ | ⟨code, fields⟩ := raw
    · cases refused
      exact .missing
    by_cases known : ∃ kind : Kind, code = .ofNat kind.code
    · obtain ⟨kind, rfl⟩ := known
      rw [parse_code, build_eq_error_iff] at refused
      obtain ⟨undefined, rfl⟩ | ⟨shape, defined, misfit⟩ := refused
      · refine .code fun other same => ?_
        rw [← Kind.eq_of_code same, undefined]
      · exact .fields defined misfit
    · have unknown := not_exists.mp known
      rw [parse_of_not_code unknown] at refused
      cases refused
      exact .code fun kind same => absurd same (unknown kind)
  · intro fault
    cases fault with
    | missing => rfl
    | @code code fields unusable =>
      by_cases known : ∃ kind : Kind, code = .ofNat kind.code
      · obtain ⟨kind, rfl⟩ := known
        rw [parse_code, build_of_none (unusable kind rfl)]
      · exact parse_of_not_code (not_exists.mp known) fields
    | fields defined misfit =>
      rw [parse_code, build_eq_error_iff]
      exact .inr ⟨_, defined, misfit⟩

/--
The lists of values that a registry takes are those that fit the shape last defined for their kind,
and of any other it says what is wrong. What is built is checked as what is read, and what is
written is read back.
-/
theorem declared_shapes_decide (shapes : List Shape) :
    (∀ raw message, (ofShapes shapes).parse raw = .ok message ↔
      raw = message.raw ∧
        ∃ shape, Shape.last? shapes message.kind = some shape ∧ shape.Admits message.fields) ∧
    (∀ raw error, (ofShapes shapes).parse raw = .error error ↔
      Fault (Shape.last? shapes) raw error) ∧
    (∀ kind fields,
      (ofShapes shapes).build kind fields = (ofShapes shapes).parse (.ofNat kind.code :: fields)) ∧
    ∀ message, ((∃ raw, (ofShapes shapes).parse raw = .ok message) ∨
        ∃ kind fields, (ofShapes shapes).build kind fields = .ok message) →
      (ofShapes shapes).parse message.raw = .ok message := by
  refine ⟨fun raw message => ?_, fun raw error => ?_, fun kind fields => ?_, fun message got => ?_⟩
  · rw [parse_eq_ok_iff, shape?_ofShapes]
  · rw [parse_eq_error_iff, shape?_ofShapes]
  · rw [parse_code]
  · obtain ⟨raw, parsed⟩ | ⟨kind, fields, built⟩ := got
    · obtain ⟨rfl, -⟩ := parse_eq_ok_iff.mp parsed
      exact parsed
    · obtain ⟨rfl, -⟩ := build_eq_ok_iff.mp built
      rw [raw, parse_code, built]

theorem declared_shapes_decide_of_redefinition :
    let shapes : List Shape :=
      [⟨.cancel, [[.request]], []⟩, ⟨.cancel, [[.request, .procedure], [.request, .options]], []⟩]
    let message : Message := ⟨.cancel, [.ofNat 7, .dict []]⟩
    (ofShapes shapes).build .cancel message.fields = .ok message ∧
      (ofShapes shapes).parse message.raw = .ok message ∧
      Fault (Shape.last? shapes) [.ofNat 49, .ofNat 7, .null] (.fieldType .cancel .procedure) := by
  intro shapes message
  obtain ⟨-, refuses, -, reads⟩ := declared_shapes_decide shapes
  have built : (ofShapes shapes).build .cancel message.fields = .ok message := rfl
  exact ⟨built, reads message (.inr ⟨_, _, built⟩), (refuses _ _).mp rfl⟩

example : standard = ofShapes (Kind.all.reverse.map Shape.standard) := rfl

end Registry

end Message

end CallRouter
