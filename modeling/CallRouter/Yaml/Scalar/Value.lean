import CallRouter.Text.Numeral
import CallRouter.Yaml.Node

namespace CallRouter.Yaml.Node

def kindTag (kind : String) : String := "tag:yaml.org,2002:" ++ kind

def literal? (kind : String) : Node → Option String
  | scalar _ _ .plain text => some text
  | scalar _ (some tag) .literal text => if tag = kindTag kind then some text else none
  | _ => none

def text? : Node → Option String
  | scalar _ _ _ text => some text
  | _ => none

def isAbsent : Node → Bool
  | scalar _ _ .plain text => text.isEmpty
  | _ => false

def truthOf : String → Option Bool
  | "true" | "True" | "TRUE" => some true
  | "false" | "False" | "FALSE" => some false
  | _ => none

def bool? (node : Node) : Option Bool := node.literal? "bool" >>= truthOf

def isNull : Node → Bool
  | scalar _ _ .plain text => ["", "~", "null", "Null", "NULL"].contains text
  | _ => false

def wordOf (base : Nat) (digits : List Char) : Option Nat := do
  let digits ← digits.mapM fun c => (Text.hexValue c).filter (· < base)
  let value := digits.foldl (base * · + ·) 0
  if digits.isEmpty || Text.wordLimit ≤ value then none else return value

/--
The number below `2 ^ 64` that a text stands for, with a plus sign in front of it or none. It is
hexadecimal behind `0x`, octal behind `0o`, binary behind `0b`, and otherwise decimal, without
needless zeros.
-/
def wordOfText (text : String) : Option Nat :=
  let chars := match text.toList with
    | '+' :: rest => rest
    | chars => chars
  match chars with
  | '0' :: 'x' :: digits => wordOf 16 digits
  | '0' :: 'o' :: digits => wordOf 8 digits
  | '0' :: 'b' :: digits => wordOf 2 digits
  | '0' :: _ :: _ => none
  | digits => wordOf 10 digits

def word? (node : Node) : Option Nat := node.literal? "int" >>= wordOfText

def name? : Node → Option String
  | scalar anchor (some tag) style text =>
    match tag.toList with
    | '!' :: name =>
      if (scalar anchor (some tag) style text).isNull then some (String.ofList name) else none
    | _ => some text
  | node => node.text?

def entries? (document : Document) : Node → Option (List (String × Node))
  | mapping _ entries => entries.mapM fun (key, value) => do
    return (← document.resolve key >>= text?, value)
  | node => if node.isAbsent then some [] else none

end CallRouter.Yaml.Node
