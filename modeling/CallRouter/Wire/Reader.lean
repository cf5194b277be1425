import CallRouter.Json.Reader
import CallRouter.Text.Blank
import CallRouter.Wire.Mode

namespace CallRouter.Wire

def rawFields (payload : Bytes) : Except ProtocolError (List Json) :=
  match String.fromUTF8? ⟨payload.toArray⟩ with
  | none => .error .invalidUtf8
  | some text =>
    match Json.ofText text with
    | none => .error .json
    | some (.list (code :: fields)) => .ok (code :: fields)
    | some _ => .error .notAnArray

def splitLine : Bytes → Option (Bytes × Bytes)
  | [] => none
  | byte :: rest =>
    if byte = Mode.lineEnd then some ([], rest)
    else (splitLine rest).map fun (line, rest) => (byte :: line, rest)

theorem length_of_splitLine {buffer line rest : Bytes}
    (found : splitLine buffer = some (line, rest)) : rest.length < buffer.length := by
  induction buffer generalizing line with
  | nil => simp [splitLine] at found
  | cons byte bytes ih =>
    simp only [splitLine] at found
    split at found
    · simp_all
    · simp only [Option.map_eq_some_iff, Prod.mk.injEq] at found
      obtain ⟨⟨inner, after⟩, inside, -, rfl⟩ := found
      exact Nat.lt_succ_of_lt (ih inside)

/-- The first complete line that is not blank, and the buffer that is left. -/
def nextLine (buffer : Bytes) : Option Bytes × Bytes :=
  match _found : splitLine buffer with
  | none => (none, buffer)
  | some (line, rest) =>
    if line.all Text.isAsciiBlank then nextLine rest else (some line, rest)
termination_by buffer.length
decreasing_by exact length_of_splitLine (by assumption)

theorem length_of_nextLine {buffer line rest : Bytes}
    (found : nextLine buffer = (some line, rest)) : rest.length < buffer.length := by
  fun_induction nextLine buffer with
  | case1 => simp at found
  | case2 buffer blank after first _ ih => exact Nat.lt_trans (ih found) (length_of_splitLine first)
  | case3 buffer first after whole _ =>
    simp only [Prod.mk.injEq, Option.some.injEq] at found
    exact found.2 ▸ length_of_splitLine whole

structure Reader where
  mode : Mode
  buffer : Bytes := []
  deriving DecidableEq, Repr

namespace Reader

def extend (reader : Reader) (bytes : Bytes) : Reader :=
  { reader with buffer := reader.buffer ++ bytes }

def poll (reader : Reader) : Except ProtocolError (Option (List Json)) × Reader :=
  match reader.mode with
  | .binary =>
    let (frame, rest) := Frame.decode reader.buffer
    let result := do
      match ← frame with
      | none => return none
      | some frame => return some (← rawFields frame.payload)
    (result, { reader with buffer := rest })
  | .lines =>
    let (line, rest) := nextLine reader.buffer
    let result := match line with
      | none => .ok none
      | some line => (rawFields line).map some
    (result, { reader with buffer := rest })

theorem length_of_poll {reader rest : Reader} {raw : List Json}
    (found : reader.poll = (.ok (some raw), rest)) : rest.buffer.length < reader.buffer.length := by
  unfold poll at found
  cases mode : reader.mode with
  | binary =>
    simp only [mode, Prod.mk.injEq] at found
    obtain ⟨result, rfl⟩ := found
    cases decoded : Frame.decode reader.buffer with
    | mk frame after =>
      cases frame with
      | error error => simp [decoded, bind, Except.bind] at result
      | ok frame =>
        cases frame with
        | none => simp [decoded, bind, Except.bind, pure, Except.pure] at result
        | some frame => exact Frame.length_of_decode decoded
  | lines =>
    simp only [mode, Prod.mk.injEq] at found
    obtain ⟨result, rfl⟩ := found
    cases taken : nextLine reader.buffer with
    | mk line after =>
      cases line with
      | none => simp [taken] at result
      | some line => exact length_of_nextLine taken

/--
All messages that have arrived completely, up to and including the first error, which ends a binary
stream for good.
-/
def drain (reader : Reader) : List (Except ProtocolError (List Json)) × Reader :=
  match _polled : reader.poll with
  | (.ok none, rest) => ([], rest)
  | (.error error, rest) => ([.error error], rest)
  | (.ok (some raw), rest) =>
    let (results, rest) := rest.drain
    (.ok raw :: results, rest)
termination_by reader.buffer.length
decreasing_by exact length_of_poll (by assumption)

end Reader

end CallRouter.Wire
