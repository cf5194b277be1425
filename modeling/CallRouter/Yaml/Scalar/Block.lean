import CallRouter.Text.Numeral
import CallRouter.Yaml.Character

/-!
Block scalars: texts on the indented lines below a header. Literal ones keep their line breaks. In
folded ones a line break between lines that do not start with a blank becomes a space, or nothing
if empty lines follow it, which are kept.
-/

namespace CallRouter.Yaml.Block

inductive Chomping where
  | strip
  | clip
  | keep
  deriving DecidableEq, Repr

structure Header where
  chomping : Chomping := .clip
  indent : Option Nat := none
  deriving DecidableEq, Repr

def readChomping : List Char → Chomping × List Char
  | '+' :: rest => (.keep, rest)
  | '-' :: rest => (.strip, rest)
  | rest => (.clip, rest)

def readIndent : List Char → Option (Option Nat × List Char)
  | [] => some (none, [])
  | c :: rest =>
    if c = '0' then none
    else if Text.isDecimalDigit c then some (some (Text.valueOfDigits [c]), rest)
    else some (none, c :: rest)

def endLine (chars : List Char) : Option (List Char) :=
  match chars.dropWhile isBlank with
  | '#' :: rest => some ((rest.dropWhile (!isBreak ·)).drop 1)
  | [] => some []
  | c :: rest => if isBreak c then some rest else none

def readHeader (chars : List Char) : Option (Header × List Char) := do
  match readChomping chars with
  | (.clip, _) =>
    let (indent, rest) ← readIndent chars
    let (chomping, rest) := if indent.isSome then readChomping rest else (.clip, rest)
    return ({ chomping, indent }, ← endLine rest)
  | (chomping, rest) =>
    let (indent, rest) ← readIndent rest
    return ({ chomping, indent }, ← endLine rest)

structure Margin where
  widest : Nat
  column : Nat
  breaks : List Char
  rest : List Char

/--
Passes empty lines and the indentation of the line behind them, at most `indent` of it if that is
known. A tab may not take part in indentation.
-/
def readMargin (indent : Option Nat) (widest column : Nat) (breaks : List Char) :
    List Char → Option Margin
  | [] => some ⟨widest, column, breaks, []⟩
  | c :: rest =>
    let indenting := indent.all (column < ·)
    if c = ' ' && indenting then readMargin indent (max widest (column + 1)) (column + 1) breaks rest
    else if c = '\t' && indenting then none
    else if isBreak c then readMargin indent widest 0 (c :: breaks) rest
    else some ⟨widest, column, breaks, c :: rest⟩

structure Lines where
  text : List Char := []
  startsBlank : Bool := false
  ending : Option Char := none
  breaks : List Char := []

def Lines.joined (lines : Lines) (folded startsBlank : Bool) : List Char :=
  let kept := lines.breaks ++ lines.ending.toList ++ lines.text
  if folded && lines.ending = some '\n' && !lines.startsBlank && !startsBlank then
    if lines.breaks.isEmpty then ' ' :: lines.text else lines.breaks ++ lines.text
  else kept

def readLines (folded : Bool) (indent : Nat) : Nat → Lines → Margin → Option (Lines × List Char)
  | 0, _, _ => none
  | fuel + 1, lines, margin => do
    let lines := { lines with breaks := margin.breaks }
    match margin.rest with
    | [] => return (lines, [])
    | c :: rest =>
      if margin.column ≠ indent then return (lines, c :: rest)
      else
        let line := (c :: rest).takeWhile (!isBreak ·)
        let below := (c :: rest).dropWhile (!isBreak ·)
        let lines : Lines :=
          { text := line.reverse ++ lines.joined folded (isBlank c)
            startsBlank := isBlank c
            ending := below.head? }
        readLines folded indent fuel lines (← readMargin (some indent) 0 0 [] (below.drop 1))

def Lines.chomped (lines : Lines) (chomping : Chomping) : List Char :=
  match chomping with
  | .strip => lines.text.reverse
  | .clip => (lines.ending.toList ++ lines.text).reverse
  | .keep => (lines.breaks ++ lines.ending.toList ++ lines.text).reverse

/--
Reads a scalar from behind its mark: its text and what follows it. The block around it is indented
by `outer`, and the scalar by at least `least`.
-/
def read (folded : Bool) (outer least : Nat) (chars : List Char) :
    Option (List Char × List Char) := do
  let (header, rest) ← readHeader chars
  let indent := header.indent.map (outer + ·)
  let margin ← readMargin indent 0 0 [] rest
  let indent := indent.getD (max margin.widest (max least 1))
  let (lines, rest) ← readLines folded indent (rest.length + 1) {} margin
  return (lines.chomped header.chomping, rest)

end CallRouter.Yaml.Block
