import CallRouter.Proofs.Wire.Stream
import Mathlib.Logic.Function.Iterate

/-!
What is read from a stream of bytes does not depend on how the stream is cut, whatever is wrong with
it. A binary stream is read up to its first error; lines are read on after errors.
-/

namespace CallRouter

def ProtocolError.isOfHeader : ProtocolError → Bool
  | invalidMagic _ | unsupportedVersion _ | invalidFlags _ | frameTooLarge _ _ => true
  | _ => false

namespace Wire

namespace Header

theorem isOfHeader_frame {header : Header} {checked : Bool} {payload : Bytes}
    {error : ProtocolError} (refused : header.frame checked payload = .error error) :
    error.isOfHeader = false := by
  unfold frame at refused
  split at refused <;> cases refused
  rfl

theorem read?_cut {buffer rest : Bytes} {header : Header}
    (found : read? buffer = some (header, rest)) :
    ∃ head, head.length = headerSize ∧ buffer = head ++ rest := by
  unfold read? at found
  split at found
  · rename_i m₀ m₁ m₂ m₃ v₀ v₁ f₀ f₁ s₀ s₁ s₂ s₃ c₀ c₁ c₂ c₃ after
    cases found
    exact ⟨[m₀, m₁, m₂, m₃, v₀, v₁, f₀, f₁, s₀, s₁, s₂, s₃, c₀, c₁, c₂, c₃], rfl, rfl⟩
  · cases found

end Header

namespace Frame

theorem decode_of_header {buffer rest : Bytes} {error : ProtocolError}
    (decoded : decode buffer = (.error error, rest)) (early : error.isOfHeader = true) :
    rest = buffer := by
  cases read : Header.read? buffer with
  | none =>
    rw [decode_of_none read] at decoded
    cases decoded
  | some found =>
    rw [decode_of_read? read] at decoded
    split at decoded
    · cases decoded
      rfl
    · split at decoded
      · cases decoded
      · rw [Header.isOfHeader_frame (Prod.mk.inj decoded).1] at early
        cases early

theorem decode_cut {buffer rest : Bytes} {frame : Frame}
    (decoded : decode buffer = (.ok (some frame), rest)) :
    ∃ head, head.length = headerSize ∧ buffer = head ++ (frame.payload ++ rest) := by
  cases read : Header.read? buffer with
  | none =>
    rw [decode_of_none read] at decoded
    cases decoded
  | some found =>
    obtain ⟨header, after⟩ := found
    obtain ⟨head, sixteen, rfl⟩ := Header.read?_cut read
    rw [decode_of_read? read] at decoded
    split at decoded
    · cases decoded
    · split at decoded
      · cases decoded
      · obtain ⟨whole, rfl⟩ := Prod.mk.inj decoded
        unfold Header.frame at whole
        split at whole <;> cases whole
        exact ⟨head, sixteen, by rw [List.take_append_drop]⟩

end Frame

namespace Reader

def given? : Except ProtocolError (Option (List Json)) →
    Option (Except ProtocolError (List Json))
  | .ok none => none
  | .ok (some raw) => some (.ok raw)
  | .error error => some (.error error)

theorem given?_eq_none_iff {result : Except ProtocolError (Option (List Json))} :
    given? result = none ↔ result = .ok none := by
  rcases result with error | _ | raw <;> simp [given?]

theorem length_of_line {buffer : Bytes} (given : given? (poll ⟨.lines, buffer⟩).1 ≠ none) :
    (poll ⟨.lines, buffer⟩).2.buffer.length < buffer.length := by
  rw [poll_lines] at given ⊢
  rcases taken : nextLine buffer with ⟨_ | line, rest⟩
  · rw [taken] at given
    exact absurd rfl given
  · exact length_of_nextLine taken

def drainLines (buffer : Bytes) : List (Except ProtocolError (List Json)) × Bytes :=
  match _given : given? (poll ⟨.lines, buffer⟩).1 with
  | none => ([], (poll ⟨.lines, buffer⟩).2.buffer)
  | some result =>
    let (results, left) := drainLines (poll ⟨.lines, buffer⟩).2.buffer
    (result :: results, left)
termination_by buffer.length
decreasing_by exact length_of_line (by simp [_given])

def receiveLines (buffer : Bytes) :
    List Bytes → List (Except ProtocolError (List Json)) × Bytes
  | [] => ([], buffer)
  | chunk :: chunks =>
    let (results, buffer) := drainLines (buffer ++ chunk)
    let (later, left) := receiveLines buffer chunks
    (results ++ later, left)

/--
What is read while chunks arrive one after the other, up to the first error, and the bytes that are
not taken off: those in the buffer and those that are yet to arrive.
-/
def receive (reader : Reader) :
    List Bytes → List (Except ProtocolError (List Json)) × Bytes
  | [] => ([], reader.buffer)
  | chunk :: chunks =>
    let (results, reader) := (reader.extend chunk).drain
    if results.all Except.isOk then
      let (later, left) := reader.receive chunks
      (results ++ later, left)
    else (results, reader.buffer ++ chunks.flatten)

def polled (reader : Reader) (count : Nat) : Reader := (fun reader => reader.poll.2)^[count] reader

theorem all_isOk_iff {results : List (Except ProtocolError (List Json))} :
    results.all Except.isOk = true ↔ Fine results := List.all_eq_true

theorem receive_eq {reader : Reader} (waits : reader.Waits) (chunks : List Bytes) :
    reader.receive chunks =
      ((reader.extend chunks.flatten).drain.1, (reader.extend chunks.flatten).drain.2.buffer) := by
  induction chunks generalizing reader with
  | nil =>
    have same : reader.extend [] = reader := by simp [extend]
    rw [List.flatten_nil, same, drain_eq, waits]
    rfl
  | cons chunk chunks ih =>
    rw [List.flatten_cons, ← extend_extend]
    simp only [receive]
    by_cases fine : Fine (reader.extend chunk).drain.1
    · obtain ⟨pause, split⟩ := drain_pause fine chunks.flatten
      rw [if_pos (all_isOk_iff.mpr fine), ih pause, split]
    · rw [if_neg fun all => fine (all_isOk_iff.mp all), drain_broken fine]
      rfl

theorem drainLines_eq (buffer : Bytes) :
    drainLines buffer = match given? (poll ⟨.lines, buffer⟩).1 with
      | none => ([], (poll ⟨.lines, buffer⟩).2.buffer)
      | some result =>
        (result :: (drainLines (poll ⟨.lines, buffer⟩).2.buffer).1,
          (drainLines (poll ⟨.lines, buffer⟩).2.buffer).2) := by
  rw [drainLines]
  split <;> rename_i given <;> simp only [given]

theorem mode_poll (reader : Reader) : reader.poll.2.mode = reader.mode := by
  obtain ⟨mode, buffer⟩ := reader
  cases mode <;> rfl

theorem drainLines_append (buffer more : Bytes) :
    drainLines (buffer ++ more) =
      ((drainLines buffer).1 ++ (drainLines ((drainLines buffer).2 ++ more)).1,
        (drainLines ((drainLines buffer).2 ++ more)).2) := by
  fun_induction drainLines buffer with
  | case1 buffer waiting =>
    have polled : poll ⟨.lines, buffer⟩ = (.ok none, (poll ⟨.lines, buffer⟩).2) :=
      Prod.ext (given?_eq_none_iff.mp waiting) rfl
    have same : poll ⟨.lines, buffer ++ more⟩ =
        poll ⟨.lines, (poll ⟨.lines, buffer⟩).2.buffer ++ more⟩ := (poll_waiting polled).2 more
    rw [drainLines_eq, same, ← drainLines_eq]
    rfl
  | case2 buffer result given results left drained ih =>
    have settled : (poll ⟨.lines, buffer⟩).1 ≠ .ok none :=
      fun none => by simp [none, given?] at given
    have polled : poll ⟨.lines, buffer⟩ =
      ((poll ⟨.lines, buffer⟩).1, (poll ⟨.lines, buffer⟩).2) := rfl
    have same : poll ⟨.lines, buffer ++ more⟩ =
        ((poll ⟨.lines, buffer⟩).1, (poll ⟨.lines, buffer⟩).2.extend more) :=
      poll_extend polled settled more
    rw [drained] at ih
    rw [drainLines_eq, same]
    dsimp only
    rw [given]
    dsimp only [extend]
    rw [ih]
    rfl

theorem receiveLines_eq {buffer : Bytes} (waits : drainLines buffer = ([], buffer))
    (chunks : List Bytes) : receiveLines buffer chunks = drainLines (buffer ++ chunks.flatten) := by
  have rests (buffer : Bytes) : drainLines (drainLines buffer).2 = ([], (drainLines buffer).2) := by
    fun_induction drainLines buffer with
    | case1 buffer waiting =>
      have polled : poll ⟨.lines, buffer⟩ = (.ok none, (poll ⟨.lines, buffer⟩).2) :=
        Prod.ext (given?_eq_none_iff.mp waiting) rfl
      have waits : poll ⟨.lines, (poll ⟨.lines, buffer⟩).2.buffer⟩ =
        (.ok none, (poll ⟨.lines, buffer⟩).2) := (poll_waiting polled).1
      rw [drainLines_eq, waits]
      rfl
    | case2 buffer result given results left drained ih =>
      rw [drained] at ih
      exact ih
  induction chunks generalizing buffer with
  | nil => rw [List.flatten_nil, List.append_nil, waits]; rfl
  | cons chunk chunks ih =>
    rw [List.flatten_cons, ← List.append_assoc, drainLines_append, receiveLines]
    simp only [ih (rests (buffer ++ chunk))]

theorem length_of_frame {buffer : Bytes}
    (given : ∃ raw, (poll ⟨.binary, buffer⟩).1 = .ok (some raw)) :
    headerSize + (poll ⟨.binary, buffer⟩).2.buffer.length ≤ buffer.length := by
  obtain ⟨raw, given⟩ := given
  rw [poll_binary] at given ⊢
  rcases decoded : Frame.decode buffer with ⟨_ | _ | frame, rest⟩
  · rw [decoded] at given
    cases given
  · rw [decoded] at given
    cases given
  · obtain ⟨head, sixteen, rfl⟩ := Frame.decode_cut decoded
    simp only [List.length_append, sixteen]
    omega

theorem polls_end (goesOn : Except ProtocolError (Option (List Json)) → Prop) {mode : Mode}
    {cost : Nat} (positive : 0 < cost)
    (taken : ∀ buffer, goesOn (poll ⟨mode, buffer⟩).1 →
      cost + (poll ⟨mode, buffer⟩).2.buffer.length ≤ buffer.length) (buffer : Bytes) :
    ∃ count, cost * count ≤ buffer.length ∧
      (∀ earlier < count, goesOn ((polled ⟨mode, buffer⟩ earlier).poll).1) ∧
      ¬ goesOn ((polled ⟨mode, buffer⟩ count).poll).1 := by
  induction size : buffer.length using Nat.strong_induction_on generalizing buffer with
  | _ size ih =>
    subst size
    by_cases first : goesOn (poll ⟨mode, buffer⟩).1
    · have less := taken buffer first
      obtain ⟨count, short, before, last⟩ := ih _ (by omega) (poll ⟨mode, buffer⟩).2.buffer rfl
      have same : (⟨mode, (poll ⟨mode, buffer⟩).2.buffer⟩ : Reader) = (poll ⟨mode, buffer⟩).2 := by
        have kept := mode_poll ⟨mode, buffer⟩
        generalize (poll ⟨mode, buffer⟩).2 = rest at kept
        obtain rfl : rest.mode = mode := kept
        rfl
      rw [same] at before last
      refine ⟨count + 1, by rw [Nat.mul_succ]; omega, fun earlier bound => ?_, last⟩
      cases earlier with
      | zero => exact first
      | succ earlier => exact before earlier (Nat.lt_of_succ_lt_succ bound)
    · exact ⟨0, Nat.zero_le _, fun _ bound => absurd bound (Nat.not_lt_zero _), first⟩

theorem isOfHeader_rawFields {payload : Bytes} {error : ProtocolError}
    (refused : rawFields payload = .error error) : error.isOfHeader = false := by
  unfold rawFields at refused
  repeat' split at refused
  all_goals cases refused
  all_goals rfl

theorem poll_of_header {buffer : Bytes} {rest : Reader} {error : ProtocolError}
    (polled : poll ⟨.binary, buffer⟩ = (.error error, rest)) (early : error.isOfHeader = true) :
    Frame.decode buffer = (.error error, buffer) ∧ rest = ⟨.binary, buffer⟩ := by
  rw [poll_binary] at polled
  rcases decoded : Frame.decode buffer with ⟨_ | _ | frame, after⟩ <;> rw [decoded] at polled
  · cases polled
    rw [Frame.decode_of_header decoded early]
    exact ⟨rfl, rfl⟩
  · cases polled
  · have refused := (Prod.mk.inj polled).1
    cases raw : rawFields frame.payload with
    | error other =>
      rw [raw] at refused
      cases refused
      rw [isOfHeader_rawFields raw] at early
      cases early
    | ok raw' =>
      rw [raw] at refused
      cases refused

/--
However a stream is cut, the same messages and errors are read from it: in binary up to the first
error, with the same bytes left, and in lines all of them. A binary poll that needs more bytes takes
none off. A frame is taken off with its header and its payload, whatever is wrong with the payload;
an error in the header takes nothing off and is met again whatever arrives. Polling ends.
-/
theorem cutting_changes_nothing {chunks others : List Bytes}
    (same : chunks.flatten = others.flatten) :
    receive ⟨.binary, []⟩ chunks = receive ⟨.binary, []⟩ others ∧
    receiveLines [] chunks = receiveLines [] others ∧
    ∀ buffer,
      (∀ rest, poll ⟨.binary, buffer⟩ = (.ok none, rest) → rest = ⟨.binary, buffer⟩) ∧
      (∀ frame rest, Frame.decode buffer = (.ok (some frame), rest) →
        poll ⟨.binary, buffer⟩ = ((rawFields frame.payload).map some, ⟨.binary, rest⟩) ∧
        ∃ head, head.length = headerSize ∧ buffer = head ++ (frame.payload ++ rest)) ∧
      (∀ error rest, poll ⟨.binary, buffer⟩ = (.error error, rest) → error.isOfHeader = true →
        rest = ⟨.binary, buffer⟩ ∧
        ∀ more, poll ⟨.binary, buffer ++ more⟩ = (.error error, ⟨.binary, buffer ++ more⟩)) ∧
      (∃ count, headerSize * count ≤ buffer.length ∧
        (∀ earlier < count, ∃ raw,
          ((polled ⟨.binary, buffer⟩ earlier).poll).1 = .ok (some raw)) ∧
        ¬ ∃ raw, ((polled ⟨.binary, buffer⟩ count).poll).1 = .ok (some raw)) ∧
      ∃ count ≤ buffer.length,
        (∀ earlier < count, ((polled ⟨.lines, buffer⟩ earlier).poll).1 ≠ .ok none) ∧
        ((polled ⟨.lines, buffer⟩ count).poll).1 = .ok none := by
  refine ⟨?_, ?_, fun buffer => ⟨?_, ?_, ?_, ?_, ?_⟩⟩
  · have waits : Waits ⟨.binary, []⟩ := waits_empty .binary
    rw [receive_eq waits, receive_eq waits, same]
  · have waits : drainLines [] = ([], []) := by
      rw [drainLines_eq, waits_empty .lines]
      rfl
    rw [receiveLines_eq waits, receiveLines_eq waits, same]
  · intro rest polled
    rw [poll_binary] at polled
    rcases decoded : Frame.decode buffer with ⟨_ | _ | frame, after⟩ <;> rw [decoded] at polled
    · cases polled
    · cases polled
      rw [Frame.decode_waiting decoded]
    · exact absurd (Prod.mk.inj polled).1 (map_some_ne_none _)
  · intro frame rest decoded
    refine ⟨?_, Frame.decode_cut decoded⟩
    rw [poll_binary, decoded]
  · intro error rest polled early
    obtain ⟨decoded, left⟩ := poll_of_header polled early
    refine ⟨left, fun more => ?_⟩
    rw [poll_binary, Frame.decode_append decoded (by simp)]
  · have sixteen : 0 < headerSize := by decide
    exact polls_end (fun result => ∃ raw, result = .ok (some raw)) sixteen
      (fun buffer => length_of_frame) buffer
  · have taken (buffer : Bytes) (given : (poll ⟨.lines, buffer⟩).1 ≠ .ok none) :
        1 + (poll ⟨.lines, buffer⟩).2.buffer.length ≤ buffer.length := by
      have less := length_of_line fun none => given (given?_eq_none_iff.mp none)
      omega
    obtain ⟨count, short, before, last⟩ := polls_end (· ≠ .ok none) Nat.zero_lt_one taken buffer
    exact ⟨count, by rwa [Nat.one_mul] at short, before, not_not.mp last⟩

theorem cutting_changes_nothing_of_broken_stream :
    let stream : Bytes :=
      [87, 77, 80, 88, 0, 1, 0, 0, 0, 0, 0, 3, 0, 0, 0, 0, 91, 49, 93] ++
      [87, 77, 80, 88, 0, 1, 0, 0, 0, 0, 0, 2, 0, 0, 0, 0, 91, 93] ++
      [66, 65, 68, 88, 0, 1, 0, 0, 0, 0, 0, 0, 0, 0, 0, 0]
    [stream].flatten = (stream.map fun byte => [byte]).flatten ∧
      receive ⟨.binary, []⟩ [stream] = receive ⟨.binary, []⟩ (stream.map fun byte => [byte]) := by
  intro stream
  have same : [stream].flatten = (stream.map fun byte => [byte]).flatten := by decide
  exact ⟨same, (cutting_changes_nothing same).1⟩

end Reader

end Wire

end CallRouter
