import CallRouter.Proofs.Wire.Frame
import CallRouter.Proofs.Wire.Line

/-!
A stream of messages arrives as it was sent, however its bytes are cut. Cutting is first shown to
be irrelevant to any stream that is read without an error; what remains is to read the encoded
messages from one buffer.
-/

namespace CallRouter.Wire

namespace Reader

def Waits (reader : Reader) : Prop := reader.poll = (.ok none, reader)

def feed (reader : Reader) : List Bytes → List (Except ProtocolError (List Json)) × Reader
  | [] => ([], reader)
  | chunk :: chunks =>
    let (results, reader) := (reader.extend chunk).drain
    let (later, reader) := reader.feed chunks
    (results ++ later, reader)

theorem extend_extend (reader : Reader) (bytes more : Bytes) :
    (reader.extend bytes).extend more = reader.extend (bytes ++ more) := by
  simp [extend]

theorem poll_binary (buffer : Bytes) :
    poll ⟨.binary, buffer⟩ = match Frame.decode buffer with
      | (.ok none, rest) => (.ok none, ⟨.binary, rest⟩)
      | (.ok (some frame), rest) => ((rawFields frame.payload).map some, ⟨.binary, rest⟩)
      | (.error error, rest) => (.error error, ⟨.binary, rest⟩) := by
  rcases decoded : Frame.decode buffer with ⟨_ | _ | frame, rest⟩
  · simp only [poll, decoded]
    rfl
  · simp only [poll, decoded]
    rfl
  · simp only [poll, decoded]
    show ((rawFields frame.payload).bind fun raw => .ok (some raw), _) = _
    cases rawFields frame.payload <;> rfl

theorem poll_lines (buffer : Bytes) :
    poll ⟨.lines, buffer⟩ = match nextLine buffer with
      | (none, rest) => (.ok none, ⟨.lines, rest⟩)
      | (some line, rest) => ((rawFields line).map some, ⟨.lines, rest⟩) := by
  rcases taken : nextLine buffer with ⟨_ | line, rest⟩ <;> simp only [poll, taken]

theorem waits_empty (mode : Mode) : Waits ⟨mode, []⟩ := by
  cases mode with
  | binary => rfl
  | lines => rw [Waits, poll_lines, nextLine_of_none rfl]

theorem map_some_ne_none (raw : Except ProtocolError (List Json)) : raw.map some ≠ .ok none := by
  cases raw <;> simp [Except.map]

theorem poll_extend {reader rest : Reader} {result : Except ProtocolError (Option (List Json))}
    (polled : reader.poll = (result, rest)) (settled : result ≠ .ok none) (more : Bytes) :
    (reader.extend more).poll = (result, rest.extend more) := by
  obtain ⟨mode, buffer⟩ := reader
  cases mode with
  | binary =>
    rw [extend, poll_binary] at *
    rcases decoded : Frame.decode buffer with ⟨_ | _ | frame, after⟩
    all_goals rw [decoded] at polled; cases polled
    · rw [Frame.decode_append decoded (by simp)]
      rfl
    · exact absurd rfl settled
    · rw [Frame.decode_append decoded (by simp)]
      rfl
  | lines =>
    rw [extend, poll_lines] at *
    rcases taken : nextLine buffer with ⟨_ | line, after⟩
    all_goals rw [taken] at polled; cases polled
    · exact absurd rfl settled
    · rw [nextLine_append taken]
      rfl

theorem poll_waiting {reader rest : Reader} (polled : reader.poll = (.ok none, rest)) :
    rest.Waits ∧ ∀ more, (reader.extend more).poll = (rest.extend more).poll := by
  obtain ⟨mode, buffer⟩ := reader
  cases mode with
  | binary =>
    have same := polled
    rw [poll_binary] at polled
    rcases decoded : Frame.decode buffer with ⟨_ | _ | frame, after⟩ <;> rw [decoded] at polled
    · cases polled
    · cases polled
      obtain rfl := Frame.decode_waiting decoded
      exact ⟨same, fun more => rfl⟩
    · exact absurd (Prod.mk.inj polled).1 (map_some_ne_none _)
  | lines =>
    rw [poll_lines] at polled
    rcases taken : nextLine buffer with ⟨_ | line, after⟩ <;> rw [taken] at polled
    · cases polled
      obtain ⟨waiting, same⟩ := nextLine_waiting taken
      refine ⟨?_, fun more => ?_⟩
      · rw [Waits, poll_lines, waiting]
      · rw [extend, extend, poll_lines, poll_lines, same]
    · exact absurd (Prod.mk.inj polled).1 (map_some_ne_none _)

theorem drain_eq (reader : Reader) :
    reader.drain = match reader.poll with
      | (.ok none, rest) => ([], rest)
      | (.error error, rest) => ([.error error], rest)
      | (.ok (some raw), rest) => (.ok raw :: rest.drain.1, rest.drain.2) := by
  rw [drain]
  split <;> rename_i polled <;> rw [polled]

def Fine (results : List (Except ProtocolError (List Json))) : Prop :=
  ∀ result ∈ results, result.isOk

theorem drain_pause {reader : Reader} (fine : Fine reader.drain.1) (more : Bytes) :
    reader.drain.2.Waits ∧
      (reader.extend more).drain =
        (reader.drain.1 ++ (reader.drain.2.extend more).drain.1,
          (reader.drain.2.extend more).drain.2) := by
  -- By induction on what is drained before the pause, where every message is complete already.
  fun_induction Reader.drain reader with
  | case1 reader rest polled =>
    have waiting := poll_waiting polled
    refine ⟨waiting.1, ?_⟩
    rw [drain_eq, waiting.2 more, ← drain_eq]
    rfl
  | case2 reader error rest polled =>
    exact absurd (fine _ List.mem_cons_self) (by simp [Except.isOk, Except.toBool])
  | case3 reader raw rest polled results last drained ih =>
    rw [drained] at ih
    obtain ⟨waits, later⟩ := ih fun result member => fine result (List.mem_cons_of_mem _ member)
    refine ⟨waits, ?_⟩
    rw [drain_eq, poll_extend polled (by simp) more]
    simp only [later, List.cons_append]

theorem drain_broken {reader : Reader} (broken : ¬ Fine reader.drain.1) (more : Bytes) :
    (reader.extend more).drain = (reader.drain.1, reader.drain.2.extend more) := by
  fun_induction Reader.drain reader with
  | case1 reader rest polled => exact absurd (by simp [Fine]) broken
  | case2 reader error rest polled => rw [drain_eq, poll_extend polled (by simp) more]
  | case3 reader raw rest polled results last drained ih =>
    rw [drained] at ih
    have later := ih fun fine => broken (List.forall_mem_cons.mpr ⟨rfl, fine⟩)
    rw [drain_eq, poll_extend polled (by simp) more]
    simp only [later]

theorem drain_extend {reader : Reader} {more : Bytes} (fine : Fine (reader.extend more).drain.1) :
    reader.drain.2.Waits ∧
      (reader.extend more).drain =
        (reader.drain.1 ++ (reader.drain.2.extend more).drain.1,
          (reader.drain.2.extend more).drain.2) := by
  refine drain_pause ?_ more
  by_contra broken
  rw [drain_broken broken more] at fine
  exact broken fine

theorem feed_eq_drain {reader : Reader} {chunks : List Bytes} (waits : reader.Waits)
    (fine : Fine (reader.extend chunks.flatten).drain.1) :
    reader.feed chunks = (reader.extend chunks.flatten).drain := by
  induction chunks generalizing reader with
  | nil =>
    have same : reader.extend [] = reader := by simp [extend]
    rw [List.flatten_nil, same, drain_eq, waits]
    rfl
  | cons chunk chunks ih =>
    rw [List.flatten_cons, ← extend_extend] at fine ⊢
    obtain ⟨pause, split⟩ := drain_extend fine
    rw [split] at fine ⊢
    show ((reader.extend chunk).drain.1 ++ ((reader.extend chunk).drain.2.feed chunks).1,
      ((reader.extend chunk).drain.2.feed chunks).2) = _
    rw [ih pause fun result member => fine result (List.mem_append_right _ member)]

end Reader

theorem rawFields_raw {message : Message}
    (plain : Json.IsPlain Json.maxLevels (.list message.raw)) :
    rawFields (utf8 (Json.list message.raw).compact) = .ok message.raw := by
  simp only [rawFields, fromUTF8?_utf8, Json.ofText_compact plain]
  rfl

theorem raw_not_blank (message : Message) :
    ¬ (utf8 (Json.list message.raw).compact).all Text.isAsciiBlank := by
  rw [Json.compact, utf8_ofList, Message.raw, Json.chars]
  simp only [List.cons_append, List.flatMap_cons, List.all_append, Bool.and_eq_true, not_and]
  intro opened
  exact absurd opened (by decide)

def IsLine (bytes : Bytes) : Prop :=
  ∃ text, bytes = text ++ [Mode.lineEnd] ∧ Mode.lineEnd ∉ text

structure Mode.Carries (mode : Mode) (message : Message) : Prop where
  plain : Json.IsPlain Json.maxLevels (.list message.raw)
  fits : mode = .binary → (utf8 (Json.list message.raw).compact).length ≤ maxPayloadSize.toNat

theorem encode_arrives {mode : Mode} {message : Message} (carries : mode.Carries message) :
    ∃ bytes, mode.encode message = .ok bytes ∧ (mode = .lines → IsLine bytes) ∧
      ∀ more, Reader.poll ⟨mode, bytes ++ more⟩ = (.ok (some message.raw), ⟨mode, more⟩) := by
  cases mode with
  | binary =>
    let frame : Frame := { payload := utf8 (Json.list message.raw).compact }
    obtain ⟨bytes, encoded, decoded⟩ := @Frame.decode_encode frame rfl (carries.fits rfl)
    refine ⟨bytes, encoded, by simp, fun more => ?_⟩
    rw [Reader.poll_binary, decoded more]
    show ((rawFields (utf8 (Json.list message.raw).compact)).map some, _) = _
    rw [rawFields_raw carries.plain]
    rfl
  | lines =>
    have inner := lineEnd_not_mem_compact (Json.list message.raw)
    refine ⟨_, rfl, fun _ => ⟨_, rfl, inner⟩, fun more => ?_⟩
    rw [Reader.poll_lines, List.append_assoc, List.singleton_append,
      nextLine_of_splitLine (splitLine_lineEnd inner more), if_neg (raw_not_blank message)]
    show ((rawFields (utf8 (Json.list message.raw).compact)).map some, _) = _
    rw [rawFields_raw carries.plain]
    rfl

theorem drain_encoded {mode : Mode} {messages : List Message}
    (carries : ∀ message ∈ messages, mode.Carries message) :
    ∃ encoded, messages.mapM mode.encode = .ok encoded ∧
      (mode = .lines → ∀ bytes ∈ encoded, IsLine bytes) ∧
      Reader.drain ⟨mode, encoded.flatten⟩ =
        (messages.map fun message => .ok message.raw, ⟨mode, []⟩) := by
  induction messages with
  | nil =>
    refine ⟨[], rfl, by simp, ?_⟩
    rw [List.flatten_nil, Reader.drain_eq, Reader.waits_empty]
    rfl
  | cons message messages ih =>
    rw [List.forall_mem_cons] at carries
    obtain ⟨bytes, encoded, line, arrives⟩ := encode_arrives carries.1
    obtain ⟨later, rest, lines, drained⟩ := ih carries.2
    refine ⟨bytes :: later, ?_, ?_, ?_⟩
    · rw [List.mapM_cons, encoded, rest]
      rfl
    · exact fun mode => List.forall_mem_cons.mpr ⟨line mode, lines mode⟩
    · rw [List.flatten_cons, Reader.drain_eq, arrives]
      show (Except.ok message.raw :: (Reader.drain ⟨mode, later.flatten⟩).1,
        (Reader.drain ⟨mode, later.flatten⟩).2) = _
      rw [drained]
      rfl

/--
Messages that a mode can carry arrive one by one and unchanged, however their bytes are cut into
chunks, and nothing is left over.
-/
theorem streams_round_trip (mode : Mode) (messages : List Message)
    (carries : ∀ message ∈ messages, mode.Carries message) :
    ∃ encoded, messages.mapM mode.encode = .ok encoded ∧
      (mode = .lines → ∀ bytes ∈ encoded, IsLine bytes) ∧
      ∀ chunks : List Bytes, chunks.flatten = encoded.flatten →
        Reader.feed ⟨mode, []⟩ chunks =
          (messages.map fun message => .ok message.raw, ⟨mode, []⟩) := by
  obtain ⟨encoded, written, lines, drained⟩ := drain_encoded carries
  refine ⟨encoded, written, lines, fun chunks cut => ?_⟩
  have whole : (Reader.extend ⟨mode, []⟩ chunks.flatten).drain =
      (messages.map fun message => .ok message.raw, ⟨mode, []⟩) := cut ▸ drained
  rw [Reader.feed_eq_drain (Reader.waits_empty mode), whole]
  rw [whole]
  intro result member
  obtain ⟨message, -, rfl⟩ := List.mem_map.mp member
  rfl

theorem streams_round_trip_of_call :
    let call : Message := ⟨.call, [.ofNat 42, .dict [("timeout", .ofInt (-1))], .text "com.echo",
      .list [.text "a\n\"b\" é", .list [.null, .bool true]]]⟩
    (∀ message ∈ [call, call], Mode.binary.Carries message) ∧
      ∃ encoded, [call, call].mapM Mode.binary.encode = .ok encoded ∧
        Reader.feed ⟨.binary, []⟩ (encoded.flatten.map fun byte => [byte]) =
          ([.ok call.raw, .ok call.raw], ⟨.binary, []⟩) := by
  intro call
  have carries : ∀ message ∈ [call, call], Mode.binary.Carries message := by
    simp only [List.forall_mem_cons]
    have one : Mode.binary.Carries call := ⟨by decide, fun _ => by decide +kernel⟩
    exact ⟨one, one, by simp⟩
  obtain ⟨encoded, written, -, arrives⟩ := streams_round_trip .binary [call, call] carries
  exact ⟨carries, encoded, written, arrives _ (List.flatMap_singleton' encoded.flatten)⟩

end CallRouter.Wire
