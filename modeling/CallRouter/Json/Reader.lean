import CallRouter.Json.Basic
import CallRouter.Text.Numeral

/-!
Reading JSON texts. Nothing beyond the grammar is admitted: no trailing commas, no raw control
characters in strings, no lone halves of surrogate pairs, no numbers out of range, and at most 127
lists and dictionaries within one another.
-/

namespace CallRouter

namespace Number

open Text (wordLimit)

def digitValue (c : Char) : Nat := c.toNat - '0'.toNat

def ofDigits (digits : List Char) : Nat := digits.foldl (fun n c => 10 * n + digitValue c) 0

/--
The significand and the power of ten of the digits before the point. Digits that no longer fit a
word of 64 bits only raise the power.
-/
def wholePart (significand : Nat) : List Char → Nat × Nat
  | [] => (significand, 0)
  | c :: rest =>
    let longer := 10 * significand + digitValue c
    if longer < wordLimit then wholePart longer rest else (significand, rest.length + 1)

/-- The same with the digits after the point. Those that no longer fit are dropped. -/
def fractionPart (significand : Nat) (power : Int) : List Char → Nat × Int
  | [] => (significand, power)
  | c :: rest =>
    let longer := 10 * significand + digitValue c
    if longer < wordLimit then fractionPart longer (power - 1) rest else (significand, power)

/--
The number that a literal denotes. Without fraction and exponent it is an integer if it fits a
word of 64 bits and is not a negative zero.
-/
def ofLiteral (negative : Bool) (whole : List Char) (fraction : Option (List Char))
    (exponent : Option Int) : Option Number :=
  let plain := ofDigits whole
  let fits := if negative then 0 < plain && plain ≤ wordLimit / 2 else plain < wordLimit
  if fraction.isNone && exponent.isNone && fits then
    some (.int (if negative then -(plain : Int) else plain))
  else
    let (significand, raised) := wholePart 0 whole
    let (significand, power) := fractionPart significand raised (fraction.getD [])
    (Binary64.ofDecimal negative significand (power + exponent.getD 0)).map .float

end Number

namespace Json

def isSpace (c : Char) : Bool := c == ' ' || c == '\t' || c == '\n' || c == '\r'

def skipSpace (chars : List Char) : List Char := chars.dropWhile isSpace

def readWord (word chars : List Char) : Option (List Char) :=
  if word.isPrefixOf chars then some (chars.drop word.length) else none

def readUnit : List Char → Option (Nat × List Char)
  | a :: b :: c :: d :: rest => do
    let value := 16 * (16 * (16 * (← Text.hexValue a) + (← Text.hexValue b)) +
      (← Text.hexValue c)) + (← Text.hexValue d)
    return (value, rest)
  | _ => none

def readUnicode (chars : List Char) : Option (Char × List Char) := do
  let (unit, rest) ← readUnit chars
  if unit < 0xD800 || 0xDFFF < unit then return (Char.ofNat unit, rest)
  else if 0xDC00 ≤ unit then none
  else
    match rest with
    | '\\' :: 'u' :: rest =>
      let (low, rest) ← readUnit rest
      if 0xDC00 ≤ low && low ≤ 0xDFFF then
        return (Char.ofNat (0x10000 + 1024 * (unit - 0xD800) + (low - 0xDC00)), rest)
      else none
    | _ => none

def readEscape : List Char → Option (Char × List Char)
  | [] => none
  | c :: rest =>
    if c = '"' || c = '\\' || c = '/' then some (c, rest)
    else if c = 'b' then some (Char.ofNat 8, rest)
    else if c = 'f' then some (Char.ofNat 12, rest)
    else if c = 'n' then some ('\n', rest)
    else if c = 'r' then some ('\r', rest)
    else if c = 't' then some ('\t', rest)
    else if c = 'u' then readUnicode rest
    else none

def readString : Nat → List Char → Option (List Char × List Char)
  | 0, _ => none
  | _, [] => none
  | fuel + 1, c :: rest =>
    if c = '"' then some ([], rest)
    else if c = '\\' then do
      let (c, rest) ← readEscape rest
      let (chars, rest) ← readString fuel rest
      return (c :: chars, rest)
    else if c.toNat < 32 then none
    else do
      let (chars, rest) ← readString fuel rest
      return (c :: chars, rest)

def readDigits (chars : List Char) : Option (List Char × List Char) :=
  let digits := chars.takeWhile Char.isDigit
  if digits.isEmpty then none else some (digits, chars.dropWhile Char.isDigit)

def readExponent (chars : List Char) : Option (Int × List Char) :=
  match chars with
  | '-' :: rest => (readDigits rest).map fun (digits, rest) => (-(Number.ofDigits digits : Int), rest)
  | '+' :: rest => (readDigits rest).map fun (digits, rest) => ((Number.ofDigits digits : Int), rest)
  | rest => (readDigits rest).map fun (digits, rest) => ((Number.ofDigits digits : Int), rest)

def readFraction : List Char → Option (Option (List Char) × List Char)
  | '.' :: rest => (readDigits rest).map fun (digits, rest) => (some digits, rest)
  | rest => some (none, rest)

def readPower : List Char → Option (Option Int × List Char)
  | 'e' :: rest | 'E' :: rest => (readExponent rest).map fun (power, rest) => (some power, rest)
  | rest => some (none, rest)

def readMagnitude (negative : Bool) (chars : List Char) : Option (Number × List Char) := do
  let (whole, rest) ← readDigits chars
  if whole.length > 1 && whole.head? == some '0' then none
  let (fraction, rest) ← readFraction rest
  let (exponent, rest) ← readPower rest
  let number ← Number.ofLiteral negative whole fraction exponent
  return (number, rest)

def readNumber : List Char → Option (Number × List Char)
  | '-' :: rest => readMagnitude true rest
  | chars => readMagnitude false chars

def readItems (readItem : List Char → Option (Json × List Char)) :
    Nat → List Char → Option (List Json × List Char)
  | 0, _ => none
  | fuel + 1, chars => do
    let (item, rest) ← readItem chars
    match skipSpace rest with
    | ']' :: rest => return ([item], rest)
    | ',' :: rest =>
      let (items, rest) ← readItems readItem fuel rest
      return (item :: items, rest)
    | _ => none

def readEntries (readItem : List Char → Option (Json × List Char)) :
    Nat → List Char → Option (List (String × Json) × List Char)
  | 0, _ => none
  | fuel + 1, chars =>
    match skipSpace chars with
    | '"' :: rest => do
      let (key, rest) ← readString rest.length rest
      match skipSpace rest with
      | ':' :: rest =>
        let (value, rest) ← readItem rest
        match skipSpace rest with
        | '}' :: rest => return ([(String.ofList key, value)], rest)
        | ',' :: rest =>
          let (entries, rest) ← readEntries readItem fuel rest
          return ((String.ofList key, value) :: entries, rest)
        | _ => none
      | _ => none
    | _ => none

def readValue (levels : Nat) (chars : List Char) : Option (Json × List Char) :=
  match skipSpace chars with
  | '"' :: rest => do
    let (value, rest) ← readString rest.length rest
    return (.text (String.ofList value), rest)
  | '[' :: rest =>
    match levels with
    | 0 => none
    | levels + 1 =>
      match skipSpace rest with
      | ']' :: rest => some (.list [], rest)
      | rest => do
        let (items, rest) ← readItems (readValue levels) rest.length rest
        return (.list items, rest)
  | '{' :: rest =>
    match levels with
    | 0 => none
    | levels + 1 =>
      match skipSpace rest with
      | '}' :: rest => some (.dict [], rest)
      | rest => do
        let (entries, rest) ← readEntries (readValue levels) rest.length rest
        return (.dict (Dict.ofEntries entries), rest)
  | 'n' :: rest => (readWord ['u', 'l', 'l'] rest).map (Json.null, ·)
  | 't' :: rest => (readWord ['r', 'u', 'e'] rest).map (Json.bool true, ·)
  | 'f' :: rest => (readWord ['a', 'l', 's', 'e'] rest).map (Json.bool false, ·)
  | rest => (readNumber rest).map fun (value, rest) => (.number value, rest)
termination_by structural levels

def maxLevels : Nat := 127

def ofChars (chars : List Char) : Option Json := do
  let (value, rest) ← readValue maxLevels chars
  if (skipSpace rest).isEmpty then return value else none

def ofText (text : String) : Option Json := ofChars text.toList

end Json

end CallRouter
