import CallRouter.Text.Numeral
import CallRouter.Yaml.Scalar.Gap

namespace CallRouter.Yaml.Quoted

def escaped : Char → Option Char
  | '0' => some '\x00'
  | 'a' => some '\x07'
  | 'b' => some '\x08'
  | 't' | '\t' => some '\t'
  | 'n' => some '\n'
  | 'v' => some '\x0b'
  | 'f' => some '\x0c'
  | 'r' => some '\r'
  | 'e' => some '\x1b'
  | ' ' => some ' '
  | '"' => some '"'
  | '/' => some '/'
  | '\\' => some '\\'
  | 'N' => some '\u0085'
  | '_' => some '\u00a0'
  | 'L' => some '\u2028'
  | 'P' => some '\u2029'
  | _ => none

def ofCode (digits : List Char) : Option Char := do
  let code := (← digits.mapM Text.hexValue).foldl (16 * · + ·) 0
  if code.isValidChar then return Char.ofNat code else none

def isBroken (gap : Gap) (chars : List Char) : Bool := gap.endsBefore 1 && startsBoundary chars

def readSingle (text : List Char) (gap : Gap) : List Char → Option (List Char × List Char)
  | [] => none
  | c :: rest =>
    if isBlank c then readSingle text (gap.addBlank c) rest
    else if isBreak c then readSingle text (gap.addBreak c) rest
    else if isBroken gap (c :: rest) then none
    else
      let text := gap.text.reverse ++ text
      if c ≠ '\'' then readSingle (c :: text) .empty rest
      else
        match rest with
        | '\'' :: rest => readSingle ('\'' :: text) .empty rest
        | rest => some (text.reverse, rest)

def readDouble (text : List Char) (gap : Gap) : List Char → Option (List Char × List Char)
  | [] => none
  | c :: rest =>
    if isBlank c then readDouble text (gap.addBlank c) rest
    else if isBreak c then readDouble text (gap.addBreak c) rest
    else if isBroken gap (c :: rest) then none
    else
      let text := gap.text.reverse ++ text
      if c = '"' then some (text.reverse, rest)
      else if c ≠ '\\' then readDouble (c :: text) .empty rest
      else
        match rest with
        | [] => none
        | 'x' :: a :: b :: rest => do
          let c ← ofCode [a, b]
          readDouble (c :: text) .empty rest
        | 'u' :: a :: b :: c :: d :: rest => do
          let c ← ofCode [a, b, c, d]
          readDouble (c :: text) .empty rest
        | 'U' :: a :: b :: c :: d :: e :: f :: g :: h :: rest => do
          let c ← ofCode [a, b, c, d, e, f, g, h]
          readDouble (c :: text) .empty rest
        | c :: rest =>
          if isBreak c then readDouble text .escaped rest
          else do
            let c ← escaped c
            readDouble (c :: text) .empty rest

end CallRouter.Yaml.Quoted
