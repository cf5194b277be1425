import CallRouter.Proofs.Registration.Inquiry

/-!
Which of its overloads a procedure is called with. Scores compare overloads by their lengths, as
long as they fit, so the longest one that fits is taken. The scores of lists that can arrive in a
message fit words of 32 bits.
-/

namespace CallRouter.Registration

namespace Parameter

variable {parameters : List Parameter} {args : List Json}

structure Fits (parameters : List Parameter) (args : List Json) : Prop where
  enough : parameters.length ≤ args.length
  accepts : ∀ (i : Nat) (parameter : Parameter) (arg : Json),
    parameters[i]? = some parameter → args[i]? = some arg → parameter.accepts arg = true

def isMet (args : List Json) (placed : Parameter × Nat) : Bool :=
  args[placed.2]?.any placed.1.accepts

def faults (parameters : List Parameter) (args : List Json) : Nat :=
  parameters.zipIdx.countP fun placed => !isMet args placed

theorem isMet_succ (args : List Json) (parameter : Parameter) (i : Nat) :
    isMet args (parameter, i + 1) = isMet args.tail (parameter, i) := by
  simp [isMet]

theorem faults_cons (parameter : Parameter) (parameters : List Parameter) (args : List Json) :
    faults (parameter :: parameters) args =
      faults parameters args.tail + if args.head?.any parameter.accepts then 0 else 1 := by
  have moved : parameters.zipIdx 1 = parameters.zipIdx.map fun placed => (placed.1, placed.2 + 1) :=
    List.zipIdx_succ
  unfold faults
  rw [List.zipIdx_cons, List.countP_cons, Nat.zero_add, moved, List.countP_map]
  congr 1
  · simp [Function.comp_def, isMet_succ]
  · rw [isMet, List.head?_eq_getElem?]
    cases args[0]?.any parameter.accepts <;> rfl

theorem unmet_eq (parameters : List Parameter) (args : List Json) :
    unmet parameters args = faults parameters args := by
  fun_induction unmet parameters args with
  | case1 => rfl
  | case2 parameter parameters ih => rw [faults_cons, ih]; rfl
  | case3 parameter parameters arg args ih => rw [ih, faults_cons]; rfl

theorem fits_iff : Fits parameters args ↔ faults parameters args = 0 := by
  simp only [faults, List.countP_eq_zero, Prod.forall, List.mem_zipIdx_iff_getElem?,
    Bool.not_eq_true, Bool.not_eq_false', isMet, Option.any_eq_true]
  constructor
  · intro fits parameter i placed
    obtain ⟨inside, -⟩ := List.getElem?_eq_some_iff.mp placed
    have arrived : i < args.length := Nat.lt_of_lt_of_le inside fits.enough
    exact ⟨args[i], List.getElem?_eq_getElem arrived,
      fits.accepts i parameter args[i] placed (List.getElem?_eq_getElem arrived)⟩
  · intro met
    refine ⟨Nat.le_of_not_lt fun short => ?_, fun i parameter arg placed given => ?_⟩
    · obtain ⟨arg, given, -⟩ := met _ args.length (List.getElem?_eq_getElem short)
      simp at given
    · obtain ⟨other, also, accepted⟩ := met parameter i placed
      obtain rfl := Option.some.inj (given.symm.trans also)
      exact accepted

instance (parameters : List Parameter) (args : List Json) : Decidable (Fits parameters args) :=
  decidable_of_iff _ fits_iff.symm

theorem score_of_faults (misfit : ¬ Fits parameters args) :
    score parameters args = -(faults parameters args : Int) := by
  have some : 0 < faults parameters args :=
    Nat.pos_of_ne_zero fun none => misfit (fits_iff.mpr none)
  rw [score, unmet_eq]
  exact if_pos some

theorem score_pos_iff_fits : 0 < score parameters args ↔ Fits parameters args := by
  rw [score_pos_iff, unmet_eq, fits_iff]

theorem score_le_of_fits {longer : List Parameter} (fits : Fits parameters args)
    (also : Fits longer args) (le : parameters.length ≤ longer.length) :
    score parameters args ≤ score longer args := by
  have enough := also.enough
  rw [fits_iff, ← unmet_eq] at fits also
  rw [score_of_met fits, score_of_met also]
  omega

section Words

def tally (args : List Json) (counts : Int32 × Int32) (placed : Parameter × Nat) : Int32 × Int32 :=
  if isMet args placed then (counts.1 + 1, counts.2) else (counts.1, counts.2 + 1)

/-- The score, computed in signed words of 32 bits that wrap around. -/
def wordScore (parameters : List Parameter) (args : List Json) : Int32 :=
  let (met, unmet) := parameters.zipIdx.foldl (tally args) (0, 0)
  if 0 < unmet then -unmet
  else
    let value := 1 + 2 * met - Int32.ofNat (args.length - parameters.length)
    if value < 1 then 1 else value

theorem foldl_tally (args : List Json) (placed : List (Parameter × Nat)) (met unmet : Nat) :
    placed.foldl (tally args) (Int32.ofNat met, Int32.ofNat unmet) =
      (Int32.ofNat (met + placed.countP (isMet args)),
        Int32.ofNat (unmet + placed.countP fun placed => !isMet args placed)) := by
  induction placed generalizing met unmet with
  | nil => rfl
  | cons first placed ih =>
    cases hit : isMet args first with
    | true =>
      have next : tally args (Int32.ofNat met, Int32.ofNat unmet) first =
          (Int32.ofNat (met + 1), Int32.ofNat unmet) := by simp [tally, hit]
      rw [List.foldl_cons, next, ih, List.countP_cons, List.countP_cons, hit]
      simp [Nat.add_assoc, Nat.add_comm]
    | false =>
      have next : tally args (Int32.ofNat met, Int32.ofNat unmet) first =
          (Int32.ofNat met, Int32.ofNat (unmet + 1)) := by simp [tally, hit]
      rw [List.foldl_cons, next, ih, List.countP_cons, List.countP_cons, hit]
      simp [Nat.add_assoc, Nat.add_comm]

theorem toInt_value {met surplus : Nat} (short : met < 2 ^ 30) (few : surplus < 2 ^ 30) :
    (1 + 2 * Int32.ofNat met - Int32.ofNat surplus).toInt = 1 + 2 * met - surplus := by
  have same : 1 + 2 * Int32.ofNat met - Int32.ofNat surplus =
      Int32.ofInt (1 + 2 * met - surplus) := by
    rw [Int32.ofInt_sub, Int32.ofInt_add, Int32.ofInt_mul, Int32.ofInt_eq_ofNat,
      Int32.ofInt_eq_ofNat]
    rfl
  rw [same, Int32.toInt_ofInt_of_le (by omega) (by omega)]

theorem toInt_neg_ofNat {count : Nat} (few : count < 2 ^ 30) :
    (-Int32.ofNat count).toInt = -(count : Int) := by
  rw [← Int32.ofInt_eq_ofNat, ← Int32.ofInt_neg, Int32.toInt_ofInt_of_le (by omega) (by omega)]

theorem ofNat_pos_iff {count : Nat} (few : count < 2 ^ 30) : 0 < Int32.ofNat count ↔ 0 < count := by
  rw [Int32.lt_iff_toInt_lt, Int32.toInt_ofNat_of_lt (by omega)]
  exact Int.natCast_pos

theorem wordScore_eq (parameters : List Parameter) (args : List Json) :
    wordScore parameters args =
      if 0 < Int32.ofNat (faults parameters args) then -Int32.ofNat (faults parameters args)
      else
        let met := parameters.length - faults parameters args
        let value := 1 + 2 * Int32.ofNat met - Int32.ofNat (args.length - parameters.length)
        if value < 1 then 1 else value := by
  have parts : parameters.length =
      parameters.zipIdx.countP (isMet args) + faults parameters args := by
    simpa [faults] using List.length_eq_countP_add_countP (isMet args) (l := parameters.zipIdx)
  have counts : parameters.zipIdx.foldl (tally args) (0, 0) =
      (Int32.ofNat (parameters.length - faults parameters args),
        Int32.ofNat (faults parameters args)) := by
    have tallied := foldl_tally args parameters.zipIdx 0 0
    rw [Nat.zero_add, Nat.zero_add] at tallied
    rw [parts, Nat.add_sub_cancel]
    exact tallied
  rw [wordScore, counts]

theorem toInt_wordScore (short : parameters.length < 2 ^ 30) (few : args.length < 2 ^ 30) :
    (wordScore parameters args).toInt = score parameters args := by
  have bound : faults parameters args ≤ parameters.length :=
    List.countP_le_length.trans_eq List.length_zipIdx
  have positive := ofNat_pos_iff (Nat.lt_of_le_of_lt bound short)
  rw [wordScore_eq]
  by_cases fits : Fits parameters args
  · have none : faults parameters args = 0 := fits_iff.mp fits
    have value : (1 + 2 * Int32.ofNat parameters.length -
        Int32.ofNat (args.length - parameters.length)).toInt =
          1 + 2 * parameters.length - (args.length - parameters.length : Nat) :=
      toInt_value short (by omega)
    have one : (1 : Int32).toInt = 1 := rfl
    rw [if_neg (by rw [positive]; omega), none, Nat.sub_zero,
      score_of_met ((unmet_eq parameters args).trans none)]
    dsimp only
    rw [apply_ite Int32.toInt, value, one]
    simp only [Int32.lt_iff_toInt_lt, value, one]
    split <;> omega
  · have some : 0 < faults parameters args :=
      Nat.pos_of_ne_zero fun none => fits (fits_iff.mpr none)
    rw [if_pos (positive.mpr some), score_of_faults fits, toInt_neg_ofNat (by omega)]

end Words

end Parameter

namespace MetaProcedure

variable {args : List Json} {overloads : List (List Parameter)} {parameters : List Parameter}

theorem best_eq_getLast?
    (growing : overloads.Pairwise fun shorter longer => shorter.length < longer.length) :
    best args overloads =
      (overloads.filter fun parameters => decide (Parameter.Fits parameters args)).getLast? := by
  induction overloads with
  | nil => rfl
  | cons first rest ih =>
    obtain ⟨longer, growing⟩ := List.pairwise_cons.mp growing
    rw [best, ih growing]
    cases found :
        (rest.filter fun parameters => decide (Parameter.Fits parameters args)).getLast? with
    | none =>
      rw [List.getLast?_eq_none_iff] at found
      by_cases fits : Parameter.Fits first args
      · simp [found, fits, Parameter.score_pos_iff_fits]
      · simp [found, fits, Parameter.score_pos_iff_fits]
    | some last =>
      have member : last ∈ rest ∧ Parameter.Fits last args := by
        simpa using List.mem_of_getLast? found
      obtain ⟨member, fits⟩ := member
      have noLower : ¬ Parameter.score last args < Parameter.score first args := by
        by_cases also : Parameter.Fits first args
        · have := Parameter.score_le_of_fits also fits (Nat.le_of_lt (longer last member))
          omega
        · have above := Parameter.score_pos_iff_fits.mpr fits
          have below := Parameter.score_of_faults also
          omega
      dsimp only
      rw [if_neg noLower, List.filter_cons]
      split
      · rw [List.getLast?_cons, found, Option.getD_some]
      · exact found.symm

theorem growing_overloads (procedure : MetaProcedure) :
    procedure.overloads.Pairwise fun shorter longer => shorter.length < longer.length := by
  cases procedure <;> simp [overloads]

theorem getLast?_eq_some_iff_longest
    (growing : overloads.Pairwise fun shorter longer => shorter.length < longer.length) :
    overloads.getLast? = some parameters ↔
      parameters ∈ overloads ∧ ∀ other ∈ overloads, other.length ≤ parameters.length := by
  constructor
  · intro last
    obtain ⟨shorter, rfl⟩ := List.getLast?_eq_some_iff.mp last
    obtain ⟨-, -, below⟩ := List.pairwise_append.mp growing
    refine ⟨by simp, fun other member => ?_⟩
    rcases List.mem_append.mp member with before | same
    · exact Nat.le_of_lt (below other before parameters (by simp))
    · rw [List.mem_singleton.mp same]
  · rintro ⟨member, longest⟩
    rcases List.eq_nil_or_concat overloads with rfl | ⟨shorter, last, rfl⟩
    · simp at member
    · rw [List.concat_eq_append] at *
      obtain ⟨-, -, below⟩ := List.pairwise_append.mp growing
      rcases List.mem_append.mp member with before | same
      · have longer := below parameters before last (by simp)
        have noLonger := longest last (by simp)
        omega
      · rw [List.mem_singleton.mp same, List.getLast?_concat]

theorem resolve_eq_some_iff {procedure : MetaProcedure} :
    procedure.resolve args = some parameters ↔
      parameters ∈ procedure.overloads ∧ Parameter.Fits parameters args ∧
        ∀ other ∈ procedure.overloads, Parameter.Fits other args →
          other.length ≤ parameters.length := by
  have growing := growing_overloads procedure
  rw [resolve, best_eq_getLast? growing, getLast?_eq_some_iff_longest (growing.filter _)]
  simp only [List.mem_filter, decide_eq_true_eq, and_imp, and_assoc]

theorem resolve_eq_none_iff {procedure : MetaProcedure} :
    procedure.resolve args = none ↔
      ∀ parameters ∈ procedure.overloads, ¬ Parameter.Fits parameters args := by
  rw [resolve, best_eq_getLast? (growing_overloads procedure), List.getLast?_eq_none_iff,
    List.filter_eq_nil_iff]
  simp only [decide_eq_true_eq]

/--
A procedure is called with the longest of its overloads that fit the arguments, however many surplus
ones there are, and with none if none fits. A score is above zero if the overload fits, and else it
is below zero by the number of its faults. The words that hold it are wide enough for all lists that
are shorter than a frame can be.
-/
theorem longest_fitting_overload_is_taken :
    (∀ parameters args, parameters.length < 2 ^ 30 → args.length < 2 ^ 30 →
      (Parameter.wordScore parameters args).toInt = Parameter.score parameters args ∧
      (0 < Parameter.score parameters args ↔ Parameter.Fits parameters args) ∧
      (¬ Parameter.Fits parameters args →
        Parameter.score parameters args = -(Parameter.faults parameters args : Int))) ∧
    ∀ (procedure : MetaProcedure) (args : List Json),
      (∀ parameters, procedure.resolve args = some parameters ↔
        parameters ∈ procedure.overloads ∧ Parameter.Fits parameters args ∧
          ∀ other ∈ procedure.overloads, Parameter.Fits other args →
            other.length ≤ parameters.length) ∧
      (procedure.resolve args = none ↔
        ∀ parameters ∈ procedure.overloads, ¬ Parameter.Fits parameters args) := by
  constructor
  · intro parameters args short few
    exact ⟨Parameter.toInt_wordScore short few, Parameter.score_pos_iff_fits,
      Parameter.score_of_faults⟩
  · intro procedure args
    exact ⟨fun parameters => resolve_eq_some_iff, resolve_eq_none_iff⟩

theorem longest_fitting_overload_is_taken_of_surplus :
    let args : List Json := .text "sum" :: .dict [] :: List.replicate 7 .null
    let shorter : List Parameter := [.uri]
    let longer : List Parameter := [.uri, .options]
    (Parameter.wordScore shorter args).toInt = 1 ∧ (Parameter.wordScore longer args).toInt = 1 ∧
      lookup.resolve args = some longer ∧ lookup.resolve [.null, .dict []] = none ∧
      Parameter.score longer [.null, .dict []] = -1 := by
  intro args shorter longer
  obtain ⟨scores, resolves⟩ := longest_fitting_overload_is_taken
  have fits : Parameter.Fits longer args := by decide +kernel
  have misfit : ¬ Parameter.Fits longer [.null, .dict []] := by decide +kernel
  refine ⟨?_, ?_, ?_, ?_, ?_⟩
  · rw [(scores shorter args (by decide) (by decide)).1]
    decide +kernel
  · rw [(scores longer args (by decide) (by decide)).1]
    decide +kernel
  · exact ((resolves lookup args).1 longer).mpr ⟨by decide, fits, by decide⟩
  · exact (resolves lookup _).2.mpr (by decide +kernel)
  · exact (scores longer _ (by decide) (by decide)).2.2 misfit

end MetaProcedure

end CallRouter.Registration
