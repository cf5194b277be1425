import Mathlib.Tactic.IntervalCases
import CallRouter.Json.Printer
import CallRouter.Json.Reader

namespace CallRouter

namespace Number

open Text (wordLimit)

theorem ofDigits_toDigits (n : Nat) : ofDigits (Nat.toDigits 10 n) = n := by
  have read := Nat.ofDigitChars_ten_toDigits (n := n)
  rwa [Nat.ofDigitChars_eq_foldl] at read

def InRange (value : Int) : Prop := -(wordLimit / 2 : Nat) ≤ value ∧ value < wordLimit

instance (value : Int) : Decidable (InRange value) := inferInstanceAs (Decidable (_ ∧ _))

theorem ofLiteral_toDigits {n : Nat} (range : InRange n) :
    ofLiteral false (Nat.toDigits 10 n) none none = some (.int n) := by
  have fits : n < wordLimit := by have := range.2; omega
  simp [ofLiteral, ofDigits_toDigits, fits]

theorem ofLiteral_toDigits_negative {n : Nat} (range : InRange (.negSucc n)) :
    ofLiteral true (Nat.toDigits 10 (n + 1)) none none = some (.int (.negSucc n)) := by
  have fits : n + 1 ≤ wordLimit / 2 := by have := range.1; omega
  simp [ofLiteral, ofDigits_toDigits, fits, Int.negSucc_eq]

end Number

namespace Json

/-- What may stand behind a value: nothing, or the mark behind an item or an entry. -/
def Closes (rest : List Char) : Prop := ∀ c ∈ rest.head?, c = ',' ∨ c = ']' ∨ c = '}'

theorem closes_nil : Closes [] := by simp [Closes]

theorem closes_cons {c : Char} {rest : List Char} (mark : c = ',' ∨ c = ']' ∨ c = '}') :
    Closes (c :: rest) := by
  simpa [Closes] using mark

theorem isDigit_of_mem_toDigits {n : Nat} {c : Char} (member : c ∈ Nat.toDigits 10 n) :
    c.isDigit :=
  Nat.isDigit_of_mem_toDigits (by decide) (by decide) member

theorem toDigits_head (n : Nat) : ∃ c rest, Nat.toDigits 10 n = c :: rest ∧ c.isDigit := by
  obtain ⟨c, rest, digits⟩ := List.exists_cons_of_ne_nil (Nat.toDigits_ne_nil (n := n) (b := 10))
  exact ⟨c, rest, digits, isDigit_of_mem_toDigits (digits ▸ List.mem_cons_self)⟩

theorem toDigits_head_ne_zero {n : Nat} (positive : 0 < n) :
    (Nat.toDigits 10 n).head? ≠ some '0' := by
  induction n using Nat.strongRecOn with
  | ind n ih =>
    by_cases small : n < 10
    · rw [Nat.toDigits_of_lt_base small]
      simpa using positive.ne'
    · have higher := ih (n / 10) (by omega) (by omega)
      obtain ⟨c, rest, digits, -⟩ := toDigits_head (n / 10)
      rw [digits] at higher
      rw [Nat.toDigits_of_base_le (by decide) (by omega), digits]
      exact higher

theorem no_leading_zero {n : Nat} (several : 1 < (Nat.toDigits 10 n).length) :
    (Nat.toDigits 10 n).head? ≠ some '0' := by
  cases n with
  | zero => exact absurd several (by decide)
  | succ n => exact toDigits_head_ne_zero (Nat.succ_pos n)

theorem readDigits_toDigits (n : Nat) {rest : List Char} (closes : Closes rest) :
    readDigits (Nat.toDigits 10 n ++ rest) = some (Nat.toDigits 10 n, rest) := by
  have digits : ∀ c ∈ Nat.toDigits 10 n, c.isDigit := fun c => isDigit_of_mem_toDigits
  have behind : rest.takeWhile Char.isDigit = [] ∧ rest.dropWhile Char.isDigit = rest := by
    cases rest with
    | nil => simp
    | cons c rest => rcases closes c rfl with rfl | rfl | rfl <;> exact ⟨rfl, rfl⟩
  simp [readDigits, List.takeWhile_append_of_pos digits, List.dropWhile_append_of_pos digits,
    behind]

theorem readMagnitude_toDigits {negative : Bool} {n : Nat} {number : Number} {rest : List Char}
    (literal : Number.ofLiteral negative (Nat.toDigits 10 n) none none = some number)
    (closes : Closes rest) :
    readMagnitude negative (Nat.toDigits 10 n ++ rest) = some (number, rest) := by
  unfold readMagnitude
  rw [readDigits_toDigits n closes]
  cases rest with
  | nil => simpa [readFraction, readPower, literal] using no_leading_zero
  | cons c rest =>
    rcases closes c rfl with rfl | rfl | rfl <;>
      simpa [readFraction, readPower, literal] using no_leading_zero

theorem intChars_head (value : Int) :
    ∃ c rest, intChars value = c :: rest ∧ (c = '-' ∨ c.isDigit) := by
  cases value with
  | ofNat n =>
    obtain ⟨c, rest, digits, digit⟩ := toDigits_head n
    exact ⟨c, rest, digits, .inr digit⟩
  | negSucc n => exact ⟨'-', _, rfl, .inl rfl⟩

theorem readNumber_intChars {value : Int} {rest : List Char} (range : Number.InRange value)
    (closes : Closes rest) : readNumber (intChars value ++ rest) = some (.int value, rest) := by
  cases value with
  | ofNat n =>
    obtain ⟨c, digits, whole, digit⟩ := toDigits_head n
    have unsigned : c ≠ '-' := by rintro rfl; cases digit
    have read := readMagnitude_toDigits (Number.ofLiteral_toDigits range) closes
    simp only [intChars, whole, List.cons_append] at read ⊢
    unfold readNumber
    split
    · rename_i sign
      exact absurd (List.cons.inj sign).1 unsigned
    · exact read
  | negSucc n =>
    exact readMagnitude_toDigits (Number.ofLiteral_toDigits_negative range) closes

def Printable (chars : List Char) : Prop := ∀ c ∈ chars, 32 ≤ c.toNat

instance (chars : List Char) : Decidable (Printable chars) :=
  decidable_of_iff (chars.all fun c => 32 ≤ c.toNat) (by simp [Printable])

@[simp] theorem printable_nil : Printable [] := by simp [Printable]

@[simp] theorem printable_cons {c : Char} {chars : List Char} :
    Printable (c :: chars) ↔ 32 ≤ c.toNat ∧ Printable chars := List.forall_mem_cons

@[simp] theorem printable_append {chars more : List Char} :
    Printable (chars ++ more) ↔ Printable chars ∧ Printable more := List.forall_mem_append

theorem escapeChar_of_printable {c : Char} (printable : 32 ≤ c.toNat) (quote : c ≠ '"')
    (backslash : c ≠ '\\') : escapeChar c = [c] := by
  have notNamed : c ≠ '\n' ∧ c ≠ '\r' ∧ c ≠ '\t' := by
    refine ⟨?_, ?_, ?_⟩ <;> rintro rfl <;> exact absurd printable (by decide)
  unfold escapeChar
  simp only [quote, backslash, notNamed, if_false]
  rw [if_neg (by omega), if_neg (by omega), if_neg (by omega), if_neg (by omega)]

theorem escapeChar_cases (c : Char) :
    (escapeChar c = [c] ∧ c ≠ '"' ∧ c ≠ '\\' ∧ 32 ≤ c.toNat) ∨
      ∃ tail, escapeChar c = '\\' :: tail ∧ Printable tail ∧
        ∀ rest, readEscape (tail ++ rest) = some (c, rest) := by
  by_cases quote : c = '"'
  · exact .inr ⟨['"'], by rw [quote]; rfl, by decide, fun rest => by rw [quote]; rfl⟩
  by_cases backslash : c = '\\'
  · exact .inr ⟨['\\'], by rw [backslash]; rfl, by decide, fun rest => by rw [backslash]; rfl⟩
  by_cases control : c.toNat < 32
  · right
    rw [← Char.ofNat_toNat c]
    generalize c.toNat = n at control
    interval_cases n <;> exact ⟨_, rfl, by decide, fun rest => rfl⟩
  · have printable : 32 ≤ c.toNat := Nat.le_of_not_lt control
    exact .inl ⟨escapeChar_of_printable printable quote backslash, quote, backslash, printable⟩

theorem readString_escapeChar (fuel : Nat) (c : Char) (rest : List Char) :
    readString (fuel + 1) (escapeChar c ++ rest) =
      (readString fuel rest).map fun (chars, rest) => (c :: chars, rest) := by
  rcases escapeChar_cases c with ⟨plain, quote, backslash, printable⟩ | ⟨tail, escaped, -, read⟩
  · have shown : ¬ c.toNat < 32 := by omega
    rw [plain]
    simp only [List.cons_append, List.nil_append, readString, quote, backslash, shown, if_false]
    cases readString fuel rest <;> rfl
  · rw [escaped]
    simp only [List.cons_append, readString, Char.reduceEq, if_false, if_true, read,
      Option.bind_eq_bind, Option.bind_some]
    cases readString fuel rest <;> rfl

theorem readString_escaped (chars rest : List Char) {fuel : Nat} (enough : chars.length < fuel) :
    readString fuel (chars.flatMap escapeChar ++ '"' :: rest) = some (chars, rest) := by
  induction chars generalizing fuel with
  | nil =>
    obtain _ | fuel := fuel
    · cases enough
    rfl
  | cons c chars ih =>
    obtain _ | fuel := fuel
    · cases enough
    rw [List.flatMap_cons, List.append_assoc, readString_escapeChar,
      ih (by simpa using enough)]
    rfl

theorem length_escaped (chars : List Char) : chars.length ≤ (chars.flatMap escapeChar).length := by
  induction chars with
  | nil => simp
  | cons c chars ih =>
    have written : 0 < (escapeChar c).length := by
      rcases escapeChar_cases c with ⟨plain, -⟩ | ⟨tail, escaped, -⟩ <;> simp [*]
    simp only [List.flatMap_cons, List.length_append, List.length_cons]
    omega

theorem readString_quote (chars rest : List Char) :
    ∃ after, quote chars ++ rest = '"' :: after ∧
      readString after.length after = some (chars, rest) := by
  refine ⟨chars.flatMap escapeChar ++ '"' :: rest, by simp [quote], readString_escaped _ _ ?_⟩
  have longer := length_escaped chars
  simp only [List.length_append, List.length_cons]
  omega

theorem printable_quote (chars : List Char) : Printable (quote chars) := by
  have escaped : Printable (chars.flatMap escapeChar) := by
    intro d member
    obtain ⟨c, -, written⟩ := List.mem_flatMap.mp member
    rcases escapeChar_cases c with ⟨plain, -, -, shown⟩ | ⟨tail, escape, shown, -⟩
    · rw [plain, List.mem_singleton] at written
      exact written ▸ shown
    · rw [escape] at written
      rcases List.mem_cons.mp written with rfl | inside
      · decide
      · exact shown d inside
  simp [quote, escaped]

def isNumeric (c : Char) : Bool := c.isDigit || c == '-' || c == '+' || c == '.' || c == 'e'

def IsNumeral (text : List Char) : Prop := ∀ c ∈ text, isNumeric c

instance (text : List Char) : Decidable (IsNumeral text) :=
  decidable_of_iff (text.all isNumeric) List.all_eq_true

@[simp] theorem isNumeral_nil : IsNumeral [] := by simp [IsNumeral]

@[simp] theorem isNumeral_cons {c : Char} {text : List Char} :
    IsNumeral (c :: text) ↔ isNumeric c ∧ IsNumeral text := List.forall_mem_cons

@[simp] theorem isNumeral_append {text more : List Char} :
    IsNumeral (text ++ more) ↔ IsNumeral text ∧ IsNumeral more := List.forall_mem_append

theorem isNumeric_of_isDigit {c : Char} (digit : c.isDigit) : isNumeric c := by
  simp [isNumeric, digit]

theorem isNumeric_cases {c : Char} (numeric : isNumeric c) :
    c.isDigit ∨ c = '-' ∨ c = '+' ∨ c = '.' ∨ c = 'e' := by
  simpa [isNumeric, or_assoc] using numeric

theorem IsNumeral.subset {text part : List Char} (numeral : IsNumeral text)
    (inside : part ⊆ text) : IsNumeral part := fun c member => numeral c (inside member)

theorem IsNumeral.printable {text : List Char} (numeral : IsNumeral text) : Printable text := by
  intro c member
  rcases isNumeric_cases (numeral c member) with digit | rfl | rfl | rfl | rfl
  · exact Nat.le_trans (by decide) (Char.isDigit_iff_toNat.mp digit).1
  all_goals decide

theorem isNumeral_toDigits (n : Nat) : IsNumeral (Nat.toDigits 10 n) :=
  fun _ member => isNumeric_of_isDigit (isDigit_of_mem_toDigits member)

theorem isNumeral_intChars (value : Int) : IsNumeral (intChars value) := by
  cases value with
  | ofNat n => exact isNumeral_toDigits n
  | negSucc n => exact isNumeral_cons.mpr ⟨rfl, isNumeral_toDigits _⟩

theorem isNumeral_signed {negative : Bool} {text : List Char} (numeral : IsNumeral text) :
    IsNumeral (Binary64.signed negative text) := by
  cases negative with
  | false => exact numeral
  | true => exact isNumeral_cons.mpr ⟨rfl, numeral⟩

theorem isNumeral_positional {digits : List Char} (numeral : IsNumeral digits) (leading : Int) :
    IsNumeral (Binary64.positional digits leading).1 ∧
      IsNumeral (Binary64.positional digits leading).2 := by
  have zeros (count : Nat) : IsNumeral (List.replicate count '0') := by
    intro c member
    rw [List.eq_of_mem_replicate member]
    rfl
  unfold Binary64.positional
  split
  · exact ⟨zeros 1, isNumeral_append.mpr ⟨zeros _, numeral⟩⟩
  · simp [zeros, numeral.subset (List.take_subset _ _), numeral.subset (List.drop_subset _ _)]

theorem isNumeral_shortestDigits (x : Binary64) : IsNumeral x.shortestDigits.1 := by
  unfold Binary64.shortestDigits
  generalize x.shortest = decimal
  refine (isNumeral_toDigits decimal.digits).subset fun c member => ?_
  exact List.mem_reverse.mp (List.dropWhile_subset _ (List.mem_reverse.mp member))

theorem isNumeral_jsonText (x : Binary64) : IsNumeral x.jsonText := by
  unfold Binary64.jsonText
  refine isNumeral_signed ?_
  split
  · decide
  · have digits := isNumeral_shortestDigits x
    generalize x.shortestDigits = shortest at digits ⊢
    obtain ⟨digits', leading⟩ := shortest
    obtain ⟨whole, part⟩ := isNumeral_positional digits leading
    obtain ⟨front, rest⟩ := isNumeral_positional digits 0
    dsimp only
    split
    · simp only [isNumeral_append, isNumeral_cons]
      refine ⟨whole, by decide, ?_⟩
      split
      · decide
      · exact part
    · simp only [isNumeral_append, isNumeral_cons]
      refine ⟨⟨front, ?_⟩, by decide, ?_, isNumeral_toDigits _⟩
      · split
        · exact isNumeral_nil
        · exact isNumeral_cons.mpr ⟨by decide, rest⟩
      · split <;> decide

theorem isNumeral_numberChars : (value : Number) → IsNumeral (numberChars value)
  | .int value => isNumeral_intChars value
  | .float value => isNumeral_jsonText value

end Json

end CallRouter
