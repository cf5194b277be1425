import CallRouter.Proofs.Json.Dict
import CallRouter.Proofs.Json.Scalar

namespace CallRouter.Json

/--
Values without fractions and of at most the given number of levels of nesting. Their dictionaries
are in order, as are all that are made from entries (`Dict.ordered_ofEntries`).
-/
inductive IsPlain : Nat → Json → Prop
  | null (levels : Nat) : IsPlain levels .null
  | bool (levels : Nat) (value : Bool) : IsPlain levels (.bool value)
  | int (levels : Nat) {value : Int} (range : Number.InRange value) :
      IsPlain levels (.number (.int value))
  | text (levels : Nat) (value : String) : IsPlain levels (.text value)
  | list {levels : Nat} {items : List Json} (each : ∀ item ∈ items, IsPlain levels item) :
      IsPlain (levels + 1) (.list items)
  | dict {levels : Nat} {entries : Dict} (ordered : entries.IsOrdered)
      (each : ∀ entry ∈ entries, IsPlain levels entry.2) : IsPlain (levels + 1) (.dict entries)

namespace IsPlain

theorem int_iff {levels : Nat} {value : Int} :
    IsPlain levels (.number (.int value)) ↔ Number.InRange value :=
  ⟨fun | .int _ range => range, .int levels⟩

theorem list_iff {levels : Nat} {items : List Json} :
    IsPlain (levels + 1) (.list items) ↔ ∀ item ∈ items, IsPlain levels item :=
  ⟨fun | .list each => each, .list⟩

theorem dict_iff {levels : Nat} {entries : Dict} :
    IsPlain (levels + 1) (.dict entries) ↔
      entries.IsOrdered ∧ ∀ entry ∈ entries, IsPlain levels entry.2 :=
  ⟨fun | .dict ordered each => ⟨ordered, each⟩, fun ⟨ordered, each⟩ => .dict ordered each⟩

def decide : (levels : Nat) → (value : Json) → Decidable (IsPlain levels value)
  | levels, .null => isTrue (.null levels)
  | levels, .bool value => isTrue (.bool levels value)
  | levels, .text value => isTrue (.text levels value)
  | _, .number (.int _) => decidable_of_iff _ int_iff.symm
  | _, .number (.float _) => isFalse nofun
  | 0, .list _ | 0, .dict _ => isFalse nofun
  | levels + 1, .list _ =>
    have := decide levels
    decidable_of_iff _ list_iff.symm
  | levels + 1, .dict _ =>
    have := decide levels
    decidable_of_iff _ dict_iff.symm

instance (levels : Nat) (value : Json) : Decidable (IsPlain levels value) := decide levels value

end IsPlain

theorem isSpace_of_isDigit {c : Char} (digit : c.isDigit) : isSpace c = false := by
  by_contra space
  simp only [isSpace, Bool.not_eq_false, Bool.or_eq_true, beq_iff_eq] at space
  rcases space with ((rfl | rfl) | rfl) | rfl <;> cases digit

theorem skipSpace_cons {c : Char} (mark : isSpace c = false) (rest : List Char) :
    skipSpace (c :: rest) = c :: rest := by
  simp [skipSpace, mark]

theorem chars_head {levels : Nat} {value : Json} (plain : IsPlain levels value) :
    ∃ c rest, value.chars = c :: rest ∧ isSpace c = false ∧ c ≠ ']' := by
  cases plain with
  | null => exact ⟨_, _, rfl, rfl, by decide⟩
  | bool _ value => cases value <;> exact ⟨_, _, rfl, rfl, by decide⟩
  | @int _ value range =>
    obtain ⟨c, rest, written, rfl | digit⟩ := intChars_head value
    · exact ⟨_, rest, written, rfl, by decide⟩
    · refine ⟨c, rest, written, isSpace_of_isDigit digit, ?_⟩
      rintro rfl
      cases digit
  | text _ value => exact ⟨_, _, rfl, rfl, by decide⟩
  | @list _ items each => cases items <;> exact ⟨_, _, rfl, rfl, by decide⟩
  | @dict _ entries ordered each => cases entries <;> exact ⟨_, _, rfl, rfl, by decide⟩

def Reads (readItem : List Char → Option (Json × List Char)) (value : Json) : Prop :=
  ∀ rest, Closes rest → readItem (value.chars ++ rest) = some (value, rest)

theorem closes_itemChars (items : List Json) (rest : List Char) :
    Closes (itemChars items ++ rest) := by
  cases items <;> exact closes_cons (by decide)

theorem closes_entryChars (entries : Dict) (rest : List Char) :
    Closes (entryChars entries ++ rest) := by
  cases entries <;> exact closes_cons (by decide)

theorem length_itemChars (items : List Json) : items.length < (itemChars items).length := by
  induction items with
  | nil => exact Nat.zero_lt_one
  | cons item items ih =>
    simp only [itemChars, List.length_cons, List.length_append]
    omega

theorem length_entryChars (entries : Dict) : entries.length < (entryChars entries).length := by
  induction entries with
  | nil => exact Nat.zero_lt_one
  | cons entry entries ih =>
    simp only [entryChars, List.length_cons, List.length_append]
    omega

theorem readItems_itemChars {readItem : List Char → Option (Json × List Char)} {item : Json}
    {items : List Json} {fuel : Nat} (reads : ∀ value ∈ item :: items, Reads readItem value)
    (enough : items.length < fuel) (rest : List Char) :
    readItems readItem fuel (item.chars ++ (itemChars items ++ rest)) =
      some (item :: items, rest) := by
  induction items generalizing item fuel with
  | nil =>
    obtain _ | fuel := fuel
    · cases enough
    have first := reads item List.mem_cons_self (']' :: rest) (closes_cons (by decide))
    simp only [readItems, itemChars, List.singleton_append, first]
    rfl
  | cons next items ih =>
    obtain _ | fuel := fuel
    · cases enough
    have first := reads item List.mem_cons_self _ (closes_itemChars (next :: items) rest)
    have later := ih (fun value member => reads value (List.mem_cons_of_mem _ member))
      (Nat.lt_of_succ_lt_succ enough)
    simp only [itemChars, List.cons_append, List.append_assoc] at first
    simp only [readItems, itemChars, List.cons_append, List.append_assoc, first,
      Option.bind_eq_bind, Option.bind_some]
    rw [skipSpace_cons rfl]
    simp only [later]
    rfl

theorem readEntries_quote (readItem : List Char → Option (Json × List Char)) (fuel : Nat)
    (key chars : List Char) :
    readEntries readItem (fuel + 1) (quote key ++ ':' :: chars) = (do
      let (value, rest) ← readItem chars
      match skipSpace rest with
      | '}' :: rest => return ([(String.ofList key, value)], rest)
      | ',' :: rest =>
        let (entries, rest) ← readEntries readItem fuel rest
        return ((String.ofList key, value) :: entries, rest)
      | _ => none) := by
  obtain ⟨after, opened, read⟩ := readString_quote key (':' :: chars)
  rw [opened, readEntries, skipSpace_cons rfl]
  simp only [read, Option.bind_eq_bind, Option.bind_some]
  rfl

theorem readEntries_entryChars {readItem : List Char → Option (Json × List Char)}
    {entry : String × Json} {entries : Dict} {fuel : Nat}
    (reads : ∀ field ∈ entry :: entries, Reads readItem field.2)
    (enough : entries.length < fuel) (rest : List Char) :
    readEntries readItem fuel
        (quote entry.1.toList ++ (':' :: (entry.2.chars ++ (entryChars entries ++ rest)))) =
      some (entry :: entries, rest) := by
  induction entries generalizing entry fuel with
  | nil =>
    obtain _ | fuel := fuel
    · cases enough
    have value := reads entry List.mem_cons_self ('}' :: rest) (closes_cons (by decide))
    simp only [readEntries_quote, String.ofList_toList, entryChars, List.singleton_append, value]
    rfl
  | cons next entries ih =>
    obtain _ | fuel := fuel
    · cases enough
    have value := reads entry List.mem_cons_self _ (closes_entryChars (next :: entries) rest)
    have later := ih (fun field member => reads field (List.mem_cons_of_mem _ member))
      (Nat.lt_of_succ_lt_succ enough)
    simp only [readEntries_quote, String.ofList_toList, value, Option.bind_eq_bind,
      Option.bind_some]
    simp only [entryChars, List.cons_append, List.append_assoc]
    rw [skipSpace_cons rfl]
    simp only [later]
    rfl

theorem readValue_quote (levels : Nat) (text : String) (rest : List Char) :
    readValue levels (quote text.toList ++ rest) = some (.text text, rest) := by
  obtain ⟨after, opened, read⟩ := readString_quote text.toList rest
  rw [opened, readValue, skipSpace_cons rfl]
  simp only [read, Option.bind_eq_bind, Option.bind_some, String.ofList_toList]
  rfl

theorem readValue_intChars (levels : Nat) {value : Int} (range : Number.InRange value)
    {rest : List Char} (closes : Closes rest) :
    readValue levels (intChars value ++ rest) = some (.number (.int value), rest) := by
  have read := readNumber_intChars range closes
  obtain ⟨c, digits, written, head⟩ := intChars_head value
  have mark : isSpace c = false := by
    rcases head with rfl | digit
    · rfl
    · exact isSpace_of_isDigit digit
  rw [written, List.cons_append] at read ⊢
  rw [readValue, skipSpace_cons mark]
  split
  case h_7 =>
    rw [read]
    rfl
  -- No quote, bracket or word begins with a digit or a minus sign.
  all_goals
    rename_i opened
    obtain ⟨rfl, -⟩ := List.cons.inj opened
    rcases head with head | head <;> cases head

theorem readValue_list {levels : Nat} {chars rest : List Char} {items : List Json}
    (inner : ∃ c tail, chars = c :: tail ∧ isSpace c = false ∧ c ≠ ']')
    (read : readItems (readValue levels) chars.length chars = some (items, rest)) :
    readValue (levels + 1) ('[' :: chars) = some (.list items, rest) := by
  obtain ⟨c, tail, rfl, mark, ne⟩ := inner
  rw [readValue, skipSpace_cons rfl]
  simp only
  rw [skipSpace_cons mark]
  split
  · rename_i closed
    exact absurd (List.cons.inj closed).1 ne
  · simp only [read, Option.bind_eq_bind, Option.bind_some]
    rfl

theorem readValue_dict {levels : Nat} {chars rest : List Char} {entries : Dict}
    (inner : ∃ tail, chars = '"' :: tail)
    (read : readEntries (readValue levels) chars.length chars = some (entries, rest)) :
    readValue (levels + 1) ('{' :: chars) = some (.dict (Dict.ofEntries entries), rest) := by
  obtain ⟨tail, rfl⟩ := inner
  rw [readValue, skipSpace_cons rfl]
  simp only
  rw [skipSpace_cons rfl]
  split
  · rename_i closed
    cases (List.cons.inj closed).1
  · simp only [read, Option.bind_eq_bind, Option.bind_some]
    rfl

theorem readValue_chars {levels : Nat} {value : Json} (plain : IsPlain levels value) :
    Reads (readValue levels) value := by
  -- By induction on the nesting: items and fields are read with one level less.
  induction plain with
  | null levels => intro rest _; rw [chars, readValue]; rfl
  | bool levels value => intro rest _; cases value <;> rw [chars, readValue] <;> rfl
  | int levels range => exact fun rest closes => readValue_intChars levels range closes
  | text levels value => exact fun rest _ => readValue_quote levels value rest
  | @list levels items each ih =>
    intro rest _
    cases items with
    | nil => rw [chars, readValue]; rfl
    | cons item items =>
      rw [chars, List.cons_append, List.cons_append, List.append_assoc]
      refine readValue_list ?_ (readItems_itemChars ih ?_ rest)
      · obtain ⟨c, tail, written, mark, ne⟩ := chars_head (each item List.mem_cons_self)
        exact ⟨c, _, by rw [written]; rfl, mark, ne⟩
      · have longer := length_itemChars items
        simp only [List.length_append]
        omega
  | @dict levels entries ordered each ih =>
    intro rest _
    cases entries with
    | nil => rw [chars, readValue]; rfl
    | cons entry entries =>
      rw [chars]
      simp only [List.cons_append, List.append_assoc]
      conv => rhs; rw [← Dict.ofEntries_of_ordered ordered]
      refine readValue_dict ⟨_, rfl⟩ (readEntries_entryChars ih ?_ rest)
      have longer := length_entryChars entries
      simp only [List.length_append, List.length_cons]
      omega

theorem ofText_compact {value : Json} (plain : IsPlain maxLevels value) :
    ofText value.compact = some value := by
  have read := readValue_chars plain [] closes_nil
  rw [List.append_nil] at read
  simp only [ofText, compact, String.toList_ofList, ofChars, read, Option.bind_eq_bind,
    Option.bind_some]
  rfl

mutual

theorem printable_chars : (value : Json) → Printable value.chars
  | .null => by simp [chars]
  | .bool true | .bool false => by simp [chars]
  | .number value => (isNumeral_numberChars value).printable
  | .text value => printable_quote value.toList
  | .list [] | .dict [] => by simp [chars]
  | .list (item :: items) => by simp [chars, printable_chars item, printable_itemChars items]
  | .dict ((_, value) :: entries) => by
    simp [chars, printable_quote, printable_chars value, printable_entryChars entries]

theorem printable_itemChars : (items : List Json) → Printable (itemChars items)
  | [] => by simp [itemChars]
  | item :: items => by simp [itemChars, printable_chars item, printable_itemChars items]

theorem printable_entryChars : (entries : Dict) → Printable (entryChars entries)
  | [] => by simp [entryChars]
  | (_, value) :: entries => by
    simp [entryChars, printable_quote, printable_chars value, printable_entryChars entries]

end

end CallRouter.Json
