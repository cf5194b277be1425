import CallRouter.Text.Numeral
import CallRouter.Yaml.Character

namespace CallRouter.Yaml

abbrev Octets := List UInt8

/-- A tag as it is written. One in full has an empty handle. -/
structure Tag where
  handle : String
  suffix : Octets
  deriving DecidableEq, Repr

inductive Directive where
  | version (major minor : Nat)
  | handle (name : String) (meaning : Octets)
  deriving DecidableEq, Repr

abbrev Handles := List (String × Octets)

namespace Tag

def octet (c : Char) : UInt8 := UInt8.ofNat c.toNat

def isUriChar (inFull : Bool) (c : Char) : Bool :=
  isNameChar c || [';', '/', '?', ':', '@', '&', '=', '+', '$', '.', '!', '~', '*', '\'', '(',
    ')'].contains c || (inFull && [',', '[', ']'].contains c)

def following (first : Nat) : Option Nat :=
  if first < 0x80 then some 0
  else if 0xC0 ≤ first && first < 0xE0 then some 1
  else if 0xE0 ≤ first && first < 0xF0 then some 2
  else if 0xF0 ≤ first && first < 0xF8 then some 3
  else none

/--
Reads the characters of a tag. An octet may be escaped by a percent sign, and the octets of one
character stand together.
-/
def readUri (inFull : Bool) (octets : Octets) (awaited : Nat) :
    List Char → Option (Octets × List Char)
  | [] => if awaited = 0 then some (octets.reverse, []) else none
  | '%' :: a :: b :: rest => do
    let value := 16 * (← Text.hexValue a) + (← Text.hexValue b)
    let octets := UInt8.ofNat value :: octets
    if awaited = 0 then readUri inFull octets (← following value) rest
    else if value / 64 = 2 then readUri inFull octets (awaited - 1) rest
    else none
  | c :: rest =>
    if awaited ≠ 0 || c = '%' then none
    else if isUriChar inFull c then readUri inFull (octet c :: octets) 0 rest
    else some (octets.reverse, c :: rest)

def readHandle : List Char → Option (List Char × List Char)
  | '!' :: rest =>
    let name := rest.takeWhile isNameChar
    match rest.dropWhile isNameChar with
    | '!' :: rest => some ('!' :: name ++ ['!'], rest)
    | rest => some ('!' :: name, rest)
  | _ => none

def isWholeHandle (chars : List Char) : Bool := 1 < chars.length && chars.getLast? == some '!'

def bare : Tag := ⟨"", [octet '!']⟩

def read (chars : List Char) : Option (Tag × List Char) :=
  match chars with
  | '!' :: '<' :: rest => do
    let (suffix, rest) ← readUri true [] 0 rest
    match rest with
    | '>' :: rest => if suffix.isEmpty then none else return (⟨"", suffix⟩, rest)
    | _ => none
  | _ => do
    let (handle, rest) ← readHandle chars
    let (suffix, rest) ← readUri false [] 0 rest
    if isWholeHandle handle then
      if suffix.isEmpty then none else return (⟨String.ofList handle, suffix⟩, rest)
    else
      let suffix := (handle.drop 1).map octet ++ suffix
      return (if suffix.isEmpty then bare else ⟨"!", suffix⟩, rest)

def commonHandles : Handles :=
  [("!", [octet '!']), ("!!", "tag:yaml.org,2002:".toList.map octet)]

def text (tag : Tag) (handles : Handles) : Option String := do
  let meaning ← if tag.handle.isEmpty then some [] else handles.lookup tag.handle
  return (String.fromUTF8? ⟨(meaning ++ tag.suffix).toArray⟩).getD ""

end Tag

namespace Directive

def readVersionPart (chars : List Char) : Option (Nat × List Char) :=
  let digits := chars.takeWhile Text.isDecimalDigit
  if digits.isEmpty || 9 < digits.length then none
  else some (Text.valueOfDigits digits, chars.dropWhile Text.isDecimalDigit)

def readVersion (chars : List Char) : Option (Directive × List Char) := do
  let (major, rest) ← readVersionPart (chars.dropWhile isBlank)
  match rest with
  | '.' :: rest =>
    let (minor, rest) ← readVersionPart rest
    return (version major minor, rest)
  | _ => none

def readMeaning (chars : List Char) : Option (Directive × List Char) := do
  let (name, rest) ← Tag.readHandle (chars.dropWhile isBlank)
  if name ≠ ['!'] && !Tag.isWholeHandle name then none
  else if !rest.head?.any isBlank then none
  else
    let (meaning, rest) ← Tag.readUri true [] 0 (rest.dropWhile isBlank)
    if meaning.isEmpty || !endsWord rest then none
    else return (handle (String.ofList name) meaning, rest)

def read (chars : List Char) : Option (Directive × List Char) :=
  let name := chars.takeWhile isNameChar
  let rest := chars.dropWhile isNameChar
  if !endsWord rest then none
  else if name = ['Y', 'A', 'M', 'L'] then readVersion rest
  else if name = ['T', 'A', 'G'] then readMeaning rest
  else none

end Directive

end CallRouter.Yaml
