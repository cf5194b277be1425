import CallRouter.Proofs.Json.Size
import CallRouter.Proofs.Number.Length
import Mathlib.Data.List.Induction
import Mathlib.Data.List.TakeWhile

/-!
What is read from a text is hardly longer when it is printed. Blanks are dropped, and integers and
texts are no longer than they were; only a number that is read as a binary64 can be.
-/

namespace CallRouter

open String (utf8Len utf8Len_nil utf8Len_cons utf8Len_append)

namespace Json

mutual

def floats : Json → Nat
  | .number (.float _) => 1
  | .list items => itemFloats items
  | .dict entries => entryFloats entries
  | _ => 0

def itemFloats : List Json → Nat
  | [] => 0
  | item :: items => floats item + itemFloats items

def entryFloats : List (String × Json) → Nat
  | [] => 0
  | (_, value) :: entries => floats value + entryFloats entries

end

end Json

namespace Number

theorem ofDigits_append (digits : List Char) (c : Char) :
    ofDigits (digits ++ [c]) = 10 * ofDigits digits + digitValue c := by
  simp [ofDigits]

theorem ofDigits_lt {digits : List Char} (each : ∀ c ∈ digits, c.isDigit) :
    ofDigits digits < 10 ^ digits.length := by
  induction digits using List.reverseRecOn with
  | nil => decide
  | append_singleton digits c ih =>
    rw [List.forall_mem_append] at each
    have below := ih each.1
    have digit : digitValue c ≤ 9 := by
      have code := Char.isDigit_iff_toNat.mp (each.2 c (List.mem_singleton_self c))
      exact Nat.sub_le_of_le_add code.2
    rw [ofDigits_append, List.length_append, List.length_singleton, Nat.pow_succ]
    omega

theorem eq_zero_of_ofDigits {digits : List Char} (each : ∀ c ∈ digits, c.isDigit)
    (none : ofDigits digits = 0) : ∀ c ∈ digits, c = '0' := by
  induction digits using List.reverseRecOn with
  | nil => simp
  | append_singleton digits c ih =>
    rw [ofDigits_append] at none
    rw [List.forall_mem_append] at each ⊢
    refine ⟨ih each.1 (by omega), ?_⟩
    have code := Char.isDigit_iff_toNat.mp (each.2 c (List.mem_singleton_self c))
    have zero : c.toNat - '0'.toNat = 0 := by
      unfold digitValue at none
      omega
    rw [List.forall_mem_singleton]
    exact Char.toNat_inj.mp (Nat.le_antisymm (Nat.sub_eq_zero_iff_le.mp zero) code.1)

theorem length_toDigits_ofDigits {digits : List Char} (some : 0 < digits.length)
    (each : ∀ c ∈ digits, c.isDigit) :
    (Nat.toDigits 10 (ofDigits digits)).length ≤ digits.length :=
  (Nat.length_toDigits_le_iff (by decide) some).mpr (ofDigits_lt each)

end Number

namespace Json

theorem readDigits_eq_some {chars digits rest : List Char}
    (read : readDigits chars = some (digits, rest)) :
    0 < digits.length ∧ (∀ c ∈ digits, c.isDigit) ∧ chars = digits ++ rest := by
  unfold readDigits at read
  dsimp only at read
  split at read
  · cases read
  · rename_i some
    obtain ⟨rfl, rfl⟩ := Prod.mk.inj (Option.some.inj read)
    refine ⟨?_, fun c member => List.mem_takeWhile_imp member, ?_⟩
    · simpa [List.length_pos_iff] using some
    · exact (List.takeWhile_append_dropWhile).symm

theorem utf8Len_of_readDigits {chars digits rest : List Char}
    (read : readDigits chars = some (digits, rest)) :
    utf8Len chars = digits.length + utf8Len rest := by
  obtain ⟨-, each, rfl⟩ := readDigits_eq_some read
  rw [utf8Len_append, utf8Len_digits each]

theorem utf8Len_of_readExponent {chars rest : List Char} {power : Int}
    (read : readExponent chars = some (power, rest)) : utf8Len rest < utf8Len chars := by
  have shorter {chars : List Char} {sign : Nat → Int} (read : (readDigits chars).map
      (fun found => (sign (Number.ofDigits found.1), found.2)) = some (power, rest)) :
      utf8Len rest < utf8Len chars := by
    obtain ⟨⟨digits, after⟩, found, same⟩ := Option.map_eq_some_iff.mp read
    obtain ⟨-, rfl⟩ : _ ∧ after = rest := Prod.mk.inj same
    have some := (readDigits_eq_some found).1
    have length := utf8Len_of_readDigits found
    omega
  unfold readExponent at read
  split at read
  · rename_i digits
    exact (@shorter digits (fun n => -n) read).trans_le (Nat.le_add_right _ _)
  · rename_i digits
    exact (@shorter digits (fun n => n) read).trans_le (Nat.le_add_right _ _)
  · exact @shorter chars (fun n => n) read

theorem utf8Len_of_readFraction {chars rest : List Char} {fraction : Option (List Char)}
    (read : readFraction chars = some (fraction, rest)) :
    utf8Len rest + (if fraction = none then 0 else 2) ≤ utf8Len chars := by
  unfold readFraction at read
  split at read
  · obtain ⟨⟨digits, after⟩, found, same⟩ := Option.map_eq_some_iff.mp read
    obtain ⟨rfl, rfl⟩ := Prod.mk.inj same
    have some := (readDigits_eq_some found).1
    have length := utf8Len_of_readDigits found
    have point : '.'.utf8Size = 1 := rfl
    rw [utf8Len_cons, if_neg (by simp)]
    omega
  · obtain ⟨rfl, rfl⟩ := Prod.mk.inj (Option.some.inj read)
    exact Nat.le_refl _

theorem utf8Len_of_readPower {chars rest : List Char} {exponent : Option Int}
    (read : readPower chars = some (exponent, rest)) :
    utf8Len rest + (if exponent = none then 0 else 2) ≤ utf8Len chars := by
  have marked {mark : Char} {chars : List Char} (read : (readExponent chars).map
      (fun found => (some found.1, found.2)) = some (exponent, rest)) :
      utf8Len rest + (if exponent = none then 0 else 2) ≤ utf8Len (mark :: chars) := by
    obtain ⟨⟨power, after⟩, found, same⟩ := Option.map_eq_some_iff.mp read
    obtain ⟨rfl, rfl⟩ : some power = exponent ∧ after = rest := Prod.mk.inj same
    have shorter := utf8Len_of_readExponent found
    have mark := mark.utf8Size_pos
    rw [utf8Len_cons, if_neg (by simp)]
    omega
  unfold readPower at read
  split at read
  · exact marked read
  · exact marked read
  · obtain ⟨rfl, rfl⟩ := Prod.mk.inj (Option.some.inj read)
    exact Nat.le_refl _

theorem readMagnitude_cases {negative : Bool} {chars rest : List Char} {number : Number}
    (read : readMagnitude negative chars = some (number, rest)) :
    ∃ whole fraction exponent, 0 < whole.length ∧ (∀ c ∈ whole, c.isDigit) ∧
      ¬ (1 < whole.length ∧ whole.head? = some '0') ∧
      Number.ofLiteral negative whole fraction exponent = some number ∧
      whole.length + (if fraction = none ∧ exponent = none then 0 else 2) + utf8Len rest ≤
        utf8Len chars := by
  unfold readMagnitude at read
  obtain ⟨⟨whole, behind⟩, digits, read⟩ := Option.bind_eq_some_iff.mp read
  dsimp only at read
  split at read
  · cases read
  rename_i leading
  obtain ⟨⟨fraction, after⟩, part, read⟩ := Option.bind_eq_some_iff.mp read
  obtain ⟨⟨exponent, last⟩, power, read⟩ := Option.bind_eq_some_iff.mp read
  obtain ⟨found, literal, same⟩ := Option.bind_eq_some_iff.mp read
  obtain ⟨rfl, rfl⟩ := Prod.mk.inj (Option.some.inj same)
  obtain ⟨some, each, rfl⟩ := readDigits_eq_some digits
  have first := utf8Len_of_readFraction part
  have second := utf8Len_of_readPower power
  refine ⟨whole, fraction, exponent, some, each, by simpa using leading, literal, ?_⟩
  rw [utf8Len_append, utf8Len_digits each]
  cases fraction <;> cases exponent <;>
    simp only [reduceCtorEq, and_true, and_false, if_true, if_false] at first second ⊢ <;> omega

end Json

namespace Number

open Text (wordLimit)

theorem ofLiteral_cases {negative : Bool} {whole : List Char} {fraction : Option (List Char)}
    {exponent : Option Int} {number : Number}
    (literal : ofLiteral negative whole fraction exponent = some number) :
    (number = .int (if negative then -(ofDigits whole : Int) else ofDigits whole) ∧
      (negative = true → 0 < ofDigits whole)) ∨
    ∃ x : Binary64, number = .float x ∧ x.IsRounded ∧ x.negative = negative ∧
      (fraction = none → exponent = none → ofDigits whole = 0 ∨ 1000 ≤ ofDigits whole) := by
  unfold ofLiteral at literal
  dsimp only at literal
  generalize range : (if negative = true then
      decide (0 < ofDigits whole) && decide (ofDigits whole ≤ wordLimit / 2)
    else decide (ofDigits whole < wordLimit)) = fits at literal
  split at literal
  · rename_i plain
    simp only [Bool.and_eq_true] at plain
    refine .inl ⟨(Option.some.inj literal).symm, fun sign => ?_⟩
    rw [if_pos sign, plain.2, Bool.and_eq_true, decide_eq_true_eq] at range
    exact range.1
  · rename_i other
    obtain ⟨x, read, rfl⟩ := Option.map_eq_some_iff.mp literal
    refine .inr ⟨x, rfl, Binary64.isRounded_ofDecimal read, ?_, ?_⟩
    · exact Binary64.negative_ofDecimal read
    · rintro rfl rfl
      have limit : wordLimit = 18446744073709551616 := rfl
      rw [← range] at other
      cases negative
      · simp only [Option.isNone_none, Bool.and_self, Bool.false_eq_true, if_false, Bool.true_and,
          decide_eq_true_eq] at other
        omega
      · simp only [Option.isNone_none, Bool.and_self, if_true, Bool.true_and, Bool.and_eq_true,
          decide_eq_true_eq] at other
        omega

end Number

namespace Json

theorem length_intChars_ofLiteral {negative : Bool} {n : Nat} (some : negative = true → 0 < n) :
    (intChars (if negative then -(n : Int) else n)).length =
      (Nat.toDigits 10 n).length + negative.toNat := by
  cases negative with
  | false => rfl
  | true =>
    obtain ⟨n, rfl⟩ := Nat.exists_eq_succ_of_ne_zero (some rfl).ne'
    rfl

theorem ofLiteral_whole_cases {negative : Bool} {whole : List Char} {x : Binary64}
    (some : 0 < whole.length) (each : ∀ c ∈ whole, c.isDigit)
    (leading : ¬ (1 < whole.length ∧ whole.head? = .some '0'))
    (literal : Number.ofLiteral negative whole none none = .some (.float x)) :
    negative = true ∧ x = .zero true ∨ 3 < whole.length := by
  obtain ⟨other, -⟩ | ⟨_, -, -, -, range⟩ := Number.ofLiteral_cases literal
  · cases other
  rcases range rfl rfl with zero | large
  · left
    have zeros := Number.eq_zero_of_ofDigits each zero
    obtain ⟨c, behind, rfl⟩ := List.exists_cons_of_length_pos some
    obtain rfl := zeros c List.mem_cons_self
    have alone : behind = [] := by simpa using leading
    subst alone
    cases negative with
    | false => cases literal
    | true =>
      have read : Number.ofLiteral true ['0'] none none = .some (.float (.zero true)) := by
        decide +kernel
      exact ⟨rfl, Number.float.inj (Option.some.inj (literal.symm.trans read))⟩
  · right
    have digits := Number.ofDigits_lt each
    by_contra few
    have least := Nat.pow_le_pow_right (show 0 < 10 by decide) (Nat.not_lt.mp few)
    omega

/--
What a number takes of a text and what it takes when it is printed: no more if it is an integer,
and at most 20 bytes more if it is not.
-/
theorem size_of_readMagnitude {negative : Bool} {chars rest : List Char} {value : Number}
    (read : readMagnitude negative chars = some (value, rest)) :
    ∃ token, token + utf8Len rest ≤ utf8Len chars ∧
      (number value).size ≤ negative.toNat + token + 20 * (number value).floats ∧
      (number value).size + 1 ≤ 6 * (negative.toNat + token + 1) := by
  obtain ⟨whole, fraction, exponent, some, each, leading, literal, taken⟩ :=
    readMagnitude_cases read
  refine ⟨_, taken, ?_⟩
  rw [size_number]
  rcases Number.ofLiteral_cases literal with ⟨rfl, sign⟩ | ⟨x, rfl, rounded, sign, -⟩
  · have digits := Number.length_toDigits_ofDigits some each
    rw [numberChars, length_intChars_ofLiteral sign]
    omega
  · have text := rounded.length_jsonText_le
    rw [sign] at text
    simp only [numberChars, floats]
    split
    · rename_i plain
      obtain ⟨rfl, rfl⟩ := plain
      obtain ⟨rfl, rfl⟩ | several := ofLiteral_whole_cases some each leading literal
      · have short : (Binary64.zero true).jsonText.length = 4 := by decide
        rw [short, Bool.toNat_true]
        omega
      · omega
    · omega

theorem size_of_readNumber {chars rest : List Char} {value : Number}
    (read : readNumber chars = some (value, rest)) :
    ∃ taken, taken + utf8Len rest ≤ utf8Len chars ∧
      (number value).size ≤ taken + 20 * (number value).floats ∧
      (number value).size + 1 ≤ 6 * (taken + 1) := by
  unfold readNumber at read
  split at read
  · obtain ⟨token, inside, more, times⟩ := size_of_readMagnitude read
    rw [Bool.toNat_true] at more times
    refine ⟨1 + token, ?_, more, times⟩
    have sign : '-'.utf8Size = 1 := rfl
    rw [utf8Len_cons]
    omega
  · obtain ⟨token, inside, more, times⟩ := size_of_readMagnitude read
    rw [Bool.toNat_false, Nat.zero_add] at more times
    exact ⟨token, inside, more, times⟩

theorem utf8Len_escapeChar_le (c : Char) : utf8Len (escapeChar c) ≤ 6 := by
  by_cases control : c.toNat < 32
  · rw [← Char.ofNat_toNat c]
    generalize c.toNat = n at control
    interval_cases n <;> decide
  by_cases quote : c = '"'
  · rw [quote]
    decide
  by_cases backslash : c = '\\'
  · rw [backslash]
    decide
  have size := c.utf8Size_le_four
  rw [escapeChar_of_printable (Nat.le_of_not_lt control) quote backslash, utf8Len_cons, utf8Len_nil]
  omega

theorem utf8Len_of_readUnit {chars rest : List Char} {unit : Nat}
    (read : readUnit chars = some (unit, rest)) : utf8Len rest + 4 ≤ utf8Len chars := by
  unfold readUnit at read
  split at read
  · rename_i a b c d behind
    simp only [Option.bind_eq_bind, Option.bind_eq_some_iff] at read
    obtain ⟨_, -, _, -, _, -, _, -, same⟩ := read
    obtain ⟨-, rfl⟩ := Prod.mk.inj (Option.some.inj same)
    have first := a.utf8Size_pos
    have second := b.utf8Size_pos
    have third := c.utf8Size_pos
    have fourth := d.utf8Size_pos
    simp only [utf8Len_cons]
    omega
  · cases read

theorem utf8Len_of_readUnicode {chars rest : List Char} {c : Char}
    (read : readUnicode chars = some (c, rest)) : utf8Len rest + 4 ≤ utf8Len chars := by
  obtain ⟨⟨unit, behind⟩, high, read⟩ := Option.bind_eq_some_iff.mp read
  have first := utf8Len_of_readUnit high
  dsimp only at read
  split at read
  · obtain ⟨-, rfl⟩ := Prod.mk.inj (Option.some.inj read)
    exact first
  split at read
  · cases read
  split at read
  · rename_i after
    obtain ⟨⟨low, last⟩, found, read⟩ := Option.bind_eq_some_iff.mp read
    have second := utf8Len_of_readUnit found
    dsimp only at read
    split at read
    · obtain ⟨-, rfl⟩ := Prod.mk.inj (Option.some.inj read)
      simp only [utf8Len_cons] at first
      omega
    · cases read
  · cases read

theorem size_of_readEscape {chars rest : List Char} {c : Char}
    (read : readEscape chars = some (c, rest)) :
    utf8Len (escapeChar c) + utf8Len rest ≤ utf8Len chars + 1 := by
  have short {mark : Char} (two : utf8Len (escapeChar c) ≤ 2) :
      utf8Len (escapeChar c) + utf8Len rest ≤ utf8Len (mark :: rest) + 1 := by
    have some := mark.utf8Size_pos
    rw [utf8Len_cons]
    omega
  cases chars with
  | nil => cases read
  | cons mark behind =>
    rw [readEscape] at read
    split at read
    · rename_i plain
      obtain ⟨rfl, rfl⟩ := Prod.mk.inj (Option.some.inj read)
      apply short
      simp only [Bool.or_eq_true, decide_eq_true_eq] at plain
      rcases plain with (rfl | rfl) | rfl <;> decide
    iterate 5
      split at read
      · obtain ⟨rfl, rfl⟩ := Prod.mk.inj (Option.some.inj read)
        exact short (by decide)
    split at read
    · have taken := utf8Len_of_readUnicode read
      have most := utf8Len_escapeChar_le c
      have some := mark.utf8Size_pos
      rw [utf8Len_cons]
      omega
    · cases read

theorem size_of_readString {fuel : Nat} {chars text rest : List Char}
    (read : readString fuel chars = some (text, rest)) :
    escapedSize text + 1 + utf8Len rest ≤ utf8Len chars := by
  induction fuel generalizing chars text rest with
  | zero => cases read
  | succ fuel ih =>
    cases chars with
    | nil => cases read
    | cons c behind =>
      rw [readString] at read
      split at read
      · rename_i quote
        obtain ⟨rfl, rfl⟩ := Prod.mk.inj (Option.some.inj read)
        have one : c.utf8Size = 1 := by rw [quote]; rfl
        have none : escapedSize [] = 0 := rfl
        rw [utf8Len_cons]
        omega
      split at read
      · rename_i backslash
        obtain ⟨⟨d, after⟩, escape, read⟩ := Option.bind_eq_some_iff.mp read
        obtain ⟨⟨more, last⟩, later, same⟩ := Option.bind_eq_some_iff.mp read
        obtain ⟨rfl, rfl⟩ := Prod.mk.inj (Option.some.inj same)
        have first := size_of_readEscape escape
        have others := ih later
        have one : c.utf8Size = 1 := by rw [backslash]; rfl
        rw [utf8Len_cons, escapedSize_cons]
        omega
      split at read
      · cases read
      · rename_i quote backslash control
        obtain ⟨⟨more, last⟩, later, same⟩ := Option.bind_eq_some_iff.mp read
        obtain ⟨rfl, rfl⟩ := Prod.mk.inj (Option.some.inj same)
        have others := ih later
        rw [utf8Len_cons, escapedSize_cons,
          escapeChar_of_printable (Nat.le_of_not_lt control) quote backslash, utf8Len_cons,
          utf8Len_nil]
        omega

theorem utf8Len_skipSpace_le (chars : List Char) : utf8Len (skipSpace chars) ≤ utf8Len chars := by
  conv => rhs; rw [← chars.takeWhile_append_dropWhile (p := isSpace), utf8Len_append]
  exact Nat.le_add_left _ _

theorem utf8Len_of_skipSpace {chars rest : List Char} {c : Char}
    (skipped : skipSpace chars = c :: rest) : utf8Len rest + 1 ≤ utf8Len chars := by
  have shorter := utf8Len_skipSpace_le chars
  have some := c.utf8Size_pos
  rw [skipped, utf8Len_cons] at shorter
  omega

theorem readWord_eq_some {word chars rest : List Char} (read : readWord word chars = some rest) :
    chars = word ++ rest := by
  unfold readWord at read
  split at read
  · rename_i front
    obtain ⟨behind, rfl⟩ := List.isPrefixOf_iff_prefix.mp front
    obtain rfl := Option.some.inj read
    rw [List.drop_left]
  · cases read

section Values

variable {factor surplus : Nat}

/-- A value is printed within what it takes of a text, at a rate for bytes and one for floats. -/
def Fits (factor surplus : Nat) (value : Json) (chars rest : List Char) : Prop :=
  ∃ taken, taken + utf8Len rest ≤ utf8Len chars ∧
    value.size ≤ factor * taken + surplus * value.floats

def FitsMarked (factor surplus : Nat) (value : Json) (chars rest : List Char) : Prop :=
  ∃ taken, taken + utf8Len rest ≤ utf8Len chars ∧
    value.size + 1 ≤ factor * (taken + 1) + surplus * value.floats

theorem Fits.marked {value : Json} {chars rest : List Char} (positive : 0 < factor)
    (fits : Fits factor surplus value chars rest) : FitsMarked factor surplus value chars rest := by
  obtain ⟨taken, inside, within⟩ := fits
  refine ⟨taken, inside, ?_⟩
  rw [Nat.mul_add]
  omega

theorem Fits.skip {value : Json} {chars rest : List Char}
    (fits : Fits factor surplus value (skipSpace chars) rest) :
    Fits factor surplus value chars rest := by
  obtain ⟨taken, inside, within⟩ := fits
  exact ⟨taken, inside.trans (utf8Len_skipSpace_le chars), within⟩

theorem Fits.behind {value : Json} {c : Char} {chars rest : List Char}
    (fits : Fits factor surplus value (c :: skipSpace chars) rest) :
    Fits factor surplus value (c :: chars) rest := by
  obtain ⟨taken, inside, within⟩ := fits
  rw [utf8Len_cons] at inside
  refine ⟨taken, inside.trans ?_, within⟩
  rw [utf8Len_cons]
  exact Nat.add_le_add_right (utf8Len_skipSpace_le chars) _

theorem fits_of_size {value : Json} {chars rest : List Char} (positive : 0 < factor)
    (inside : value.size + utf8Len rest ≤ utf8Len chars) : Fits factor surplus value chars rest :=
  ⟨value.size, inside,
    (Nat.le_mul_of_pos_left _ positive).trans (Nat.le_add_right _ _)⟩

theorem fits_of_chars (positive : 0 < factor) (value : Json) (rest : List Char) :
    Fits factor surplus value (value.chars ++ rest) rest :=
  fits_of_size positive (utf8Len_append _ _).ge

variable {readItem : List Char → Option (Json × List Char)}
  (reads : ∀ chars value rest, readItem chars = some (value, rest) →
    FitsMarked factor surplus value chars rest)

include reads

theorem sizes_of_readItems {fuel : Nat} {chars rest : List Char} {items : List Json}
    (read : readItems readItem fuel chars = some (items, rest)) :
    ∃ taken, 0 < taken ∧ taken + utf8Len rest ≤ utf8Len chars ∧
      sizes items ≤ factor * taken + surplus * itemFloats items := by
  induction fuel generalizing chars rest items with
  | zero => cases read
  | succ fuel ih =>
    rw [readItems] at read
    obtain ⟨⟨item, behind⟩, found, read⟩ := Option.bind_eq_some_iff.mp read
    obtain ⟨first, inside, within⟩ := reads _ _ _ found
    dsimp only at read
    split at read
    · rename_i closed
      obtain ⟨rfl, rfl⟩ := Prod.mk.inj (Option.some.inj read)
      have mark := utf8Len_of_skipSpace closed
      refine ⟨first + 1, by omega, by omega, ?_⟩
      simpa [itemFloats] using within
    · rename_i comma
      obtain ⟨⟨others, last⟩, later, same⟩ := Option.bind_eq_some_iff.mp read
      obtain ⟨rfl, rfl⟩ := Prod.mk.inj (Option.some.inj same)
      have mark := utf8Len_of_skipSpace comma
      obtain ⟨second, -, beyond, rest⟩ := ih later
      dsimp only at beyond ⊢
      refine ⟨first + 1 + second, by omega, by omega, ?_⟩
      rw [sizes_cons, itemFloats, Nat.mul_add, Nat.mul_add surplus]
      omega
    · cases read

/-- What the text of an entry takes beyond what its floats are granted. -/
def excess (surplus : Nat) (entry : String × Json) : Nat :=
  utf8Len (quote entry.1.toList) + 1 + entry.2.size + 1 - surplus * entry.2.floats

omit reads in
theorem entrySizes_le_excess (surplus : Nat) (entries : Dict) :
    entrySizes entries ≤ (entries.map (excess surplus)).sum + surplus * entryFloats entries := by
  induction entries with
  | nil => exact Nat.zero_le _
  | cons entry entries ih =>
    rw [entrySizes_cons, entryFloats, List.map_cons, List.sum_cons, excess, Nat.mul_add]
    omega

theorem excess_of_readEntries {fuel : Nat} {chars rest : List Char} {entries : Dict}
    (positive : 0 < factor) (read : readEntries readItem fuel chars = some (entries, rest)) :
    ∃ taken, 0 < taken ∧ taken + utf8Len rest ≤ utf8Len chars ∧
      (entries.map (excess surplus)).sum ≤ factor * taken := by
  induction fuel generalizing chars rest entries with
  | zero => cases read
  | succ fuel ih =>
    rw [readEntries] at read
    split at read
    case h_2 => cases read
    rename_i opened
    obtain ⟨⟨key, behind⟩, text, read⟩ := Option.bind_eq_some_iff.mp read
    dsimp only at read
    split at read
    case h_2 => cases read
    rename_i start colon
    obtain ⟨⟨value, after⟩, found, read⟩ := Option.bind_eq_some_iff.mp read
    dsimp only at read
    obtain ⟨held, inside, within⟩ := reads _ _ _ found
    have front : escapedSize key + 3 + utf8Len start ≤ utf8Len chars := by
      have first := utf8Len_of_skipSpace opened
      have second := size_of_readString text
      have third := utf8Len_of_skipSpace colon
      omega
    have entry : excess surplus (String.ofList key, value) ≤
        factor * (escapedSize key + 3 + (held + 1)) := by
      have paid := Nat.le_mul_of_pos_left (escapedSize key + 3) positive
      rw [Nat.mul_add, excess, String.toList_ofList, utf8Len_quote]
      dsimp only
      omega
    split at read
    · rename_i closed
      obtain ⟨rfl, rfl⟩ := Prod.mk.inj (Option.some.inj read)
      have mark := utf8Len_of_skipSpace closed
      exact ⟨escapedSize key + 3 + (held + 1), by omega, by omega, by simpa using entry⟩
    · rename_i comma
      obtain ⟨⟨others, last⟩, later, same⟩ := Option.bind_eq_some_iff.mp read
      obtain ⟨rfl, rfl⟩ := Prod.mk.inj (Option.some.inj same)
      have mark := utf8Len_of_skipSpace comma
      obtain ⟨second, -, beyond, rest⟩ := ih later
      dsimp only at beyond ⊢
      refine ⟨escapedSize key + 3 + (held + 1) + second, by omega, by omega, ?_⟩
      rw [List.map_cons, List.sum_cons, Nat.mul_add]
      exact Nat.add_le_add entry rest
    · cases read

theorem fits_of_readItems {fuel : Nat} {chars rest : List Char} {items : List Json}
    (positive : 0 < factor) (read : readItems readItem fuel chars = some (items, rest)) :
    Fits factor surplus (.list items) ('[' :: chars) rest := by
  obtain ⟨taken, some, inside, within⟩ := sizes_of_readItems reads read
  have bracket : '['.utf8Size = 1 := rfl
  have paid := Nat.mul_pos positive some
  refine ⟨1 + taken, by rw [utf8Len_cons]; omega, ?_⟩
  rw [Nat.mul_add, floats]
  cases items with
  | nil =>
    have two : (list []).size = 2 := rfl
    omega
  | cons item items =>
    rw [size_list]
    omega

theorem fits_of_readEntries {fuel : Nat} {chars rest : List Char} {entries : Dict}
    (positive : 0 < factor) (read : readEntries readItem fuel chars = some (entries, rest)) :
    Fits factor surplus (.dict (Dict.ofEntries entries)) ('{' :: chars) rest := by
  obtain ⟨taken, some, inside, within⟩ := excess_of_readEntries reads positive read
  have fewer := Dict.sum_ofEntries_le (excess surplus) entries
  have sizes := entrySizes_le_excess surplus (Dict.ofEntries entries)
  have brace : '{'.utf8Size = 1 := by decide
  have paid := Nat.mul_pos positive some
  refine ⟨1 + taken, by rw [utf8Len_cons]; omega, ?_⟩
  rw [Nat.mul_add, floats]
  generalize Dict.ofEntries entries = held at fewer sizes ⊢
  cases held with
  | nil =>
    have two : (dict []).size = 2 := rfl
    omega
  | cons entry held =>
    rw [size_dict]
    omega

end Values

section Reading

variable {factor surplus : Nat} (positive : 0 < factor)
  (numbers : ∀ chars value rest, readNumber chars = some (value, rest) →
    FitsMarked factor surplus (.number value) chars rest)

include positive numbers

theorem fits_of_readValue {levels : Nat} {chars rest : List Char} {value : Json}
    (read : readValue levels chars = some (value, rest)) :
    Fits factor surplus value chars rest ∨
      (∃ held, value = .number held) ∧ FitsMarked factor surplus value chars rest := by
  -- By induction on the nesting, where whatever is inside of a value has a mark behind it.
  induction levels using Nat.strongRecOn generalizing chars rest value with
  | ind levels ih =>
    have reads (lower : Nat) (less : lower < levels) (chars : List Char) (value : Json)
        (rest : List Char) (read : readValue lower chars = some (value, rest)) :
        FitsMarked factor surplus value chars rest :=
      (ih lower less read).elim (·.marked positive) (·.2)
    rw [readValue] at read
    split at read
    case h_7 =>
      obtain ⟨⟨held, behind⟩, found, same⟩ := Option.map_eq_some_iff.mp read
      obtain ⟨rfl, rfl⟩ := Prod.mk.inj same
      obtain ⟨taken, inside, within⟩ := numbers _ _ _ found
      exact .inr ⟨⟨held, rfl⟩, taken, inside.trans (utf8Len_skipSpace_le chars), within⟩
    all_goals
      left
      rename_i opened
      refine Fits.skip ?_
      rw [opened]
    · obtain ⟨⟨text, last⟩, found, same⟩ := Option.bind_eq_some_iff.mp read
      obtain ⟨rfl, rfl⟩ := Prod.mk.inj (Option.some.inj same)
      have inside := size_of_readString found
      refine fits_of_size positive ?_
      rw [size_text, String.toList_ofList, utf8Len_cons, show '"'.utf8Size = 1 from rfl]
      omega
    · split at read
      · cases read
      · refine Fits.behind ?_
        split at read
        · rename_i closed
          obtain ⟨rfl, rfl⟩ := Prod.mk.inj (Option.some.inj read)
          rw [closed]
          exact fits_of_chars positive (.list []) _
        · obtain ⟨⟨items, last⟩, found, same⟩ := Option.bind_eq_some_iff.mp read
          obtain ⟨rfl, rfl⟩ := Prod.mk.inj (Option.some.inj same)
          exact fits_of_readItems (reads _ (Nat.lt_succ_self _)) positive found
    · split at read
      · cases read
      · refine Fits.behind ?_
        split at read
        · rename_i closed
          obtain ⟨rfl, rfl⟩ := Prod.mk.inj (Option.some.inj read)
          rw [closed]
          exact fits_of_chars positive (.dict []) _
        · obtain ⟨⟨entries, last⟩, found, same⟩ := Option.bind_eq_some_iff.mp read
          obtain ⟨rfl, rfl⟩ := Prod.mk.inj (Option.some.inj same)
          exact fits_of_readEntries (reads _ (Nat.lt_succ_self _)) positive found
    all_goals
      obtain ⟨last, found, same⟩ := Option.map_eq_some_iff.mp read
      obtain ⟨rfl, rfl⟩ := Prod.mk.inj same
      rw [readWord_eq_some found]
      exact fits_of_chars positive _ last

end Reading

theorem size_of_list {factor surplus : Nat} (positive : 0 < factor)
    (numbers : ∀ chars value rest, readNumber chars = some (value, rest) →
      FitsMarked factor surplus (.number value) chars rest)
    {text : String} {items : List Json} (read : ofText text = some (.list items)) :
    (list items).size ≤ factor * utf8Len text.toList + surplus * itemFloats items := by
  obtain ⟨⟨value, rest⟩, found, read⟩ := Option.bind_eq_some_iff.mp read
  dsimp only at read
  split at read
  · obtain rfl := Option.some.inj read
    rcases fits_of_readValue positive numbers found with ⟨taken, inside, within⟩ | ⟨⟨_, other⟩, -⟩
    · have paid := Nat.mul_le_mul_left factor (show taken ≤ utf8Len text.toList by omega)
      exact within.trans (Nat.add_le_add_right paid _)
    · cases other
  · cases read

/--
A list is printed in at most six times the bytes that it was read from, and in at most as many if
there are no binary64 numbers in it, each of which takes at most 20 bytes more than it took.
-/
theorem size_of_ofText {text : String} {items : List Json}
    (read : ofText text = some (.list items)) :
    (list items).size ≤
      min (6 * utf8Len text.toList) (utf8Len text.toList + 20 * itemFloats items) := by
  have times (chars : List Char) (value : Number) (rest : List Char)
      (number : readNumber chars = some (value, rest)) :
      FitsMarked 6 0 (.number value) chars rest := by
    obtain ⟨taken, inside, -, times⟩ := size_of_readNumber number
    exact ⟨taken, inside, by omega⟩
  have more (chars : List Char) (value : Number) (rest : List Char)
      (number : readNumber chars = some (value, rest)) :
      FitsMarked 1 20 (.number value) chars rest := by
    obtain ⟨taken, inside, more, -⟩ := size_of_readNumber number
    exact ⟨taken, inside, by omega⟩
  have first := size_of_list (by decide) times read
  have second := size_of_list (by decide) more read
  omega

example : (ofText "[1e15, 1]").map compact = some "[1000000000000000.0,1]" := by decide +kernel

end Json

end CallRouter
