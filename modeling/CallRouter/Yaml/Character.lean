namespace CallRouter.Yaml

def isAdmitted (c : Char) : Bool :=
  let n := c.toNat
  n == 0x9 || n == 0xA || n == 0xD || n == 0x85 || (0x20 ≤ n && n ≤ 0x7E) ||
    (0xA0 ≤ n && n ≠ 0xFFFE && n ≠ 0xFFFF)

def byteOrderMark : Char := '\ufeff'

def isBreak (c : Char) : Bool := c == '\n' || c == '\u2028' || c == '\u2029'

def isBlank (c : Char) : Bool := c == ' ' || c == '\t'

/--
The line break of a text that a character and the one after it make up. A carriage return, the
next-line character and a line feed are all one line feed, as is a carriage return with a line feed.
-/
def uniformBreak : Char × Option Char → Option Char
  | ('\r', some '\n') => none
  | (c, _) => some (if c == '\r' || c == '\u0085' then '\n' else c)

def withUniformBreaks (chars : List Char) : List Char :=
  (chars.zip ((chars.drop 1).map some ++ [none])).filterMap uniformBreak

def endsWord : List Char → Bool
  | [] => true
  | c :: _ => isBlank c || isBreak c

def isNameChar (c : Char) : Bool := c.isAlphanum || c == '_' || c == '-'

def startsMarker (mark : Char) : List Char → Bool
  | a :: b :: c :: rest => a == mark && b == mark && c == mark && endsWord rest
  | _ => false

def startsBoundary (chars : List Char) : Bool := startsMarker '-' chars || startsMarker '.' chars

end CallRouter.Yaml
