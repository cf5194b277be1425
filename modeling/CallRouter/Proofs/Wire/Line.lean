import CallRouter.Proofs.Json.RoundTrip
import CallRouter.Wire.Reader

namespace CallRouter.Wire

theorem fromUTF8?_utf8 (text : String) : String.fromUTF8? ⟨(utf8 text).toArray⟩ = some text := by
  have valid : text.toByteArray.IsValidUTF8 := text.isValidUTF8
  show String.fromUTF8? text.toByteArray = some text
  exact dif_pos valid

theorem utf8_ofList (chars : List Char) :
    utf8 (String.ofList chars) = chars.flatMap String.utf8EncodeChar := by
  simp [utf8, List.utf8Encode]

theorem toNat_of_mem_utf8EncodeChar {c : Char} {byte : UInt8}
    (member : byte ∈ String.utf8EncodeChar c) (ascii : byte.toNat < 128) :
    byte.toNat = c.toNat := by
  unfold String.utf8EncodeChar at member
  dsimp only at member
  repeat' split at member
  all_goals
    simp only [List.mem_cons, List.not_mem_nil, or_false] at member
    rcases member with rfl | rfl | rfl | rfl
  all_goals
    rw [UInt8.toNat_ofNat'] at ascii ⊢
    show _ = c.val.toNat
    omega

theorem lineEnd_not_mem_compact (value : Json) : Mode.lineEnd ∉ utf8 value.compact := by
  intro member
  rw [Json.compact, utf8_ofList] at member
  obtain ⟨c, inside, written⟩ := List.mem_flatMap.mp member
  have same := toNat_of_mem_utf8EncodeChar written (by decide)
  have shown := Json.printable_chars value c inside
  rw [← same] at shown
  exact absurd shown (by decide)

theorem splitLine_lineEnd {line : Bytes} (inner : Mode.lineEnd ∉ line) (rest : Bytes) :
    splitLine (line ++ Mode.lineEnd :: rest) = some (line, rest) := by
  induction line with
  | nil => simp [splitLine]
  | cons byte line ih =>
    rw [List.mem_cons, not_or] at inner
    simp [splitLine, Ne.symm inner.1, ih inner.2]

theorem splitLine_append {buffer line rest : Bytes} (found : splitLine buffer = some (line, rest))
    (more : Bytes) : splitLine (buffer ++ more) = some (line, rest ++ more) := by
  induction buffer generalizing line with
  | nil => cases found
  | cons byte buffer ih =>
    simp only [List.cons_append, splitLine] at found ⊢
    split at found
    · rename_i ended
      cases found
      exact if_pos ended
    · rename_i inner
      rw [if_neg inner]
      obtain ⟨⟨line, rest⟩, within, same⟩ := Option.map_eq_some_iff.mp found
      cases same
      rw [ih within]
      rfl

theorem nextLine_of_splitLine {buffer line rest : Bytes}
    (found : splitLine buffer = some (line, rest)) :
    nextLine buffer = if line.all Text.isAsciiBlank then nextLine rest else (some line, rest) := by
  rw [nextLine]
  split
  · rename_i missing
    rw [missing] at found
    cases found
  · rename_i other
    rw [other] at found
    cases found
    rfl

theorem nextLine_of_none {buffer : Bytes} (missing : splitLine buffer = none) :
    nextLine buffer = (none, buffer) := by
  rw [nextLine]
  split
  · rfl
  · rename_i found
    rw [found] at missing
    cases missing

theorem nextLine_append {buffer line rest : Bytes} (found : nextLine buffer = (some line, rest))
    (more : Bytes) : nextLine (buffer ++ more) = (some line, rest ++ more) := by
  fun_induction nextLine buffer with
  | case1 buffer missing => cases found
  | case2 buffer blank after first empty ih =>
    rw [nextLine_of_splitLine (splitLine_append first more), if_pos empty]
    exact ih found
  | case3 buffer first after whole written =>
    cases found
    rw [nextLine_of_splitLine (splitLine_append whole more), if_neg written]

theorem nextLine_waiting {buffer rest : Bytes} (waiting : nextLine buffer = (none, rest)) :
    nextLine rest = (none, rest) ∧ ∀ more, nextLine (buffer ++ more) = nextLine (rest ++ more) := by
  fun_induction nextLine buffer with
  | case1 buffer missing =>
    cases waiting
    exact ⟨nextLine_of_none missing, fun more => rfl⟩
  | case2 buffer blank after first empty ih =>
    refine ⟨(ih waiting).1, fun more => ?_⟩
    rw [nextLine_of_splitLine (splitLine_append first more), if_pos empty]
    exact (ih waiting).2 more
  | case3 buffer first after whole written => cases waiting

end CallRouter.Wire
