import CallRouter.Proofs.Json.RoundTrip
import Mathlib.Data.Nat.Digits.Defs
import Mathlib.Data.String.Basic

namespace CallRouter

namespace Json

open String (utf8Len utf8Len_nil utf8Len_cons utf8Len_append)

theorem utf8Len_ascii {text : List Char} (ascii : ∀ c ∈ text, c.utf8Size = 1) :
    utf8Len text = text.length := by
  induction text with
  | nil => rfl
  | cons c text ih =>
    rw [List.forall_mem_cons] at ascii
    rw [utf8Len_cons, ascii.1, ih ascii.2, List.length_cons]

def size (value : Json) : Nat := utf8Len value.chars

def sizes (values : List Json) : Nat := (values.map fun value => value.size + 1).sum

@[simp] theorem sizes_nil : sizes [] = 0 := rfl

@[simp] theorem sizes_cons (value : Json) (values : List Json) :
    sizes (value :: values) = value.size + 1 + sizes values := by
  simp [sizes]

@[simp] theorem sizes_append (values more : List Json) :
    sizes (values ++ more) = sizes values + sizes more := by
  simp [sizes]

theorem sizes_perm {values others : List Json} (same : values.Perm others) :
    sizes values = sizes others :=
  (same.map _).sum_nat

theorem sizes_replicate (n : Nat) (value : Json) :
    sizes (List.replicate n value) = n * (value.size + 1) := by
  simp [sizes]

theorem length_le_sizes (values : List Json) : values.length ≤ sizes values := by
  induction values with
  | nil => exact Nat.zero_le _
  | cons value values ih =>
    rw [List.length_cons, sizes_cons]
    omega

theorem size_list (item : Json) (items : List Json) :
    (list (item :: items)).size = 1 + sizes (item :: items) := by
  have rest : utf8Len (itemChars items) = 1 + sizes items := by
    induction items with
    | nil => rfl
    | cons item items ih =>
      have comma : ','.utf8Size = 1 := rfl
      simp only [itemChars, List.cons_append, utf8Len_cons, utf8Len_append, ih, sizes_cons, size, comma]
      omega
  have bracket : '['.utf8Size = 1 := rfl
  simp only [size, chars, List.cons_append, utf8Len_cons, utf8Len_append, rest, sizes_cons, bracket]
  omega

theorem size_list_le (items : List Json) : (list items).size ≤ 2 + sizes items := by
  cases items with
  | nil => exact Nat.le_refl 2
  | cons item items =>
    rw [size_list]
    omega

theorem sizes_le_size_list (items : List Json) : sizes items ≤ (list items).size := by
  cases items with
  | nil => exact Nat.zero_le _
  | cons item items =>
    rw [size_list]
    omega

theorem size_le_sizes {item : Json} {items : List Json} (member : item ∈ items) :
    item.size ≤ sizes items := by
  obtain ⟨before, after, rfl⟩ := List.append_of_mem member
  rw [sizes_append, sizes_cons]
  omega

def entrySizes (entries : Dict) : Nat :=
  (entries.map fun entry => utf8Len (quote entry.1.toList) + 1 + entry.2.size + 1).sum

@[simp] theorem entrySizes_nil : entrySizes [] = 0 := rfl

@[simp] theorem entrySizes_cons (key : String) (value : Json) (entries : Dict) :
    entrySizes ((key, value) :: entries) =
      utf8Len (quote key.toList) + 1 + value.size + 1 + entrySizes entries := by
  simp [entrySizes]

@[simp] theorem entrySizes_append (entries more : Dict) :
    entrySizes (entries ++ more) = entrySizes entries + entrySizes more := by
  simp [entrySizes]

theorem size_dict (entry : String × Json) (entries : Dict) :
    (dict (entry :: entries)).size = 1 + entrySizes (entry :: entries) := by
  have colon : ':'.utf8Size = 1 := rfl
  have rest : utf8Len (entryChars entries) = 1 + entrySizes entries := by
    induction entries with
    | nil => rfl
    | cons entry entries ih =>
      obtain ⟨key, value⟩ := entry
      have comma : ','.utf8Size = 1 := rfl
      simp only [entryChars, List.cons_append, utf8Len_cons, utf8Len_append, ih, entrySizes_cons, size,
        comma, colon]
      omega
  obtain ⟨key, value⟩ := entry
  have brace : '{'.utf8Size = 1 := by decide
  simp only [size, chars, List.cons_append, utf8Len_cons, utf8Len_append, rest, entrySizes_cons, brace,
    colon]
  omega

theorem size_dict_le (entries : Dict) : (dict entries).size ≤ 2 + entrySizes entries := by
  cases entries with
  | nil => exact Nat.le_refl 2
  | cons entry entries =>
    rw [size_dict]
    omega

theorem size_of_get? {entries : Dict} {key : String} {value : Json}
    (found : entries.get? key = some value) : value.size ≤ (dict entries).size := by
  have inside : value.size ≤ entrySizes entries := by
    induction entries with
    | nil => cases found
    | cons entry entries ih =>
      obtain ⟨other, held⟩ := entry
      rw [entrySizes_cons]
      rw [Dict.get?, List.lookup_cons] at found
      split at found
      · cases found
        omega
      · have later := ih found
        omega
  cases entries with
  | nil => cases found
  | cons entry entries =>
    rw [size_dict]
    omega

theorem utf8Size_of_isDigit {c : Char} (digit : c.isDigit) : c.utf8Size = 1 := by
  have code := Char.isDigit_iff_toNat.mp digit
  rw [Char.utf8Size_eq_one_iff, UInt32.le_iff_toNat_le]
  exact Nat.le_trans code.2 (by decide)

theorem utf8Len_digits {digits : List Char} (each : ∀ c ∈ digits, c.isDigit) :
    utf8Len digits = digits.length :=
  utf8Len_ascii fun c member => utf8Size_of_isDigit (each c member)

theorem size_number (value : Number) : (number value).size = (numberChars value).length := by
  refine utf8Len_ascii fun c member => ?_
  rcases isNumeric_cases (isNumeral_numberChars value c member) with digit | rfl | rfl | rfl | rfl
  · exact utf8Size_of_isDigit digit
  all_goals rfl

theorem size_ofNat (n : Nat) : (ofNat n).size = (Nat.toDigits 10 n).length := size_number (.int n)

theorem size_ofNat_pos (n : Nat) : 0 < (ofNat n).size := by
  rw [size_ofNat]
  exact Nat.length_toDigits_pos

theorem size_ofNat_le {n places : Nat} (some : 0 < places) (small : n < 10 ^ places) :
    (ofNat n).size ≤ places := by
  rw [size_ofNat]
  exact (Nat.length_toDigits_le_iff (by decide) some).mpr small

theorem size_ofNat_le_succ (n : Nat) : (ofNat n).size ≤ n + 1 :=
  size_ofNat_le n.succ_pos ((n.lt_succ_self).trans (Nat.lt_pow_self (by decide)))

def escapedSize (text : List Char) : Nat := utf8Len (text.flatMap escapeChar)

@[simp] theorem escapedSize_append (text more : List Char) :
    escapedSize (text ++ more) = escapedSize text + escapedSize more := by
  simp [escapedSize]

theorem escapedSize_cons (c : Char) (text : List Char) :
    escapedSize (c :: text) = utf8Len (escapeChar c) + escapedSize text := by
  simp [escapedSize]

theorem escapedSize_replicate (n : Nat) : escapedSize (List.replicate n 'x') = n := by
  induction n with
  | zero => rfl
  | succ n ih =>
    have one : escapedSize ['x'] = 1 := by decide
    rw [List.replicate_succ, ← List.singleton_append, escapedSize_append, ih, one, Nat.add_comm]

theorem utf8Len_quote (text : List Char) : utf8Len (quote text) = 2 + escapedSize text := by
  have mark : '"'.utf8Size = 1 := rfl
  simp only [quote, List.cons_append, utf8Len_cons, utf8Len_append, utf8Len_nil, mark, escapedSize]
  omega

theorem size_text (text : String) : (Json.text text).size = 2 + escapedSize text.toList :=
  utf8Len_quote text.toList

theorem size_text_append (front back : String) :
    (text (front ++ back)).size = escapedSize front.toList + (text back).size := by
  rw [size_text, size_text, String.toList_append, escapedSize_append]
  omega

theorem size_text_decimal (n : Nat) : (text (Text.decimal n)).size = 2 + (ofNat n).size := by
  have plain : ∀ c ∈ Nat.toDigits 10 n, escapeChar c = [c] := by
    intro c member
    have digit := isDigit_of_mem_toDigits member
    have code := Char.isDigit_iff_toNat.mp digit
    refine escapeChar_of_printable (Nat.le_trans (by decide) code.1) ?_ ?_ <;>
      rintro rfl <;> cases digit
  rw [size_text, escapedSize, Text.decimal, String.toList_ofList, List.flatMap_congr plain,
    List.flatMap_singleton']
  rfl

theorem escapedSize_le {text : List Char} (printable : Printable text) :
    escapedSize text ≤ 2 * utf8Len text := by
  induction text with
  | nil => exact Nat.le_refl 0
  | cons c text ih =>
    rw [printable_cons] at printable
    have first : utf8Len (escapeChar c) ≤ 2 * c.utf8Size := by
      by_cases quote : c = '"'
      · rw [quote]
        decide
      by_cases backslash : c = '\\'
      · rw [backslash]
        decide
      rw [escapeChar_of_printable printable.1 quote backslash, utf8Len_cons, utf8Len_nil]
      omega
    have rest := ih printable.2
    rw [utf8Len_cons, escapedSize, List.flatMap_cons, utf8Len_append, ← escapedSize]
    omega

theorem escapedSize_compact (value : Json) :
    escapedSize value.compact.toList ≤ 2 * value.size := by
  rw [compact, String.toList_ofList]
  exact escapedSize_le (printable_chars value)

end Json

end CallRouter
