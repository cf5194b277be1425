import CallRouter.Json.Basic

namespace CallRouter.Json

def hexDigits (n : Nat) : List Char := Nat.toDigits 16 n

def escapeChar (c : Char) : List Char :=
  if c = '"' then ['\\', '"']
  else if c = '\\' then ['\\', '\\']
  else if c.toNat = 8 then ['\\', 'b']
  else if c.toNat = 12 then ['\\', 'f']
  else if c = '\n' then ['\\', 'n']
  else if c = '\r' then ['\\', 'r']
  else if c = '\t' then ['\\', 't']
  else if c.toNat < 16 then '\\' :: 'u' :: '0' :: '0' :: '0' :: hexDigits c.toNat
  else if c.toNat < 32 then '\\' :: 'u' :: '0' :: '0' :: hexDigits c.toNat
  else [c]

def quote (chars : List Char) : List Char := '"' :: chars.flatMap escapeChar ++ ['"']

def intChars : Int → List Char
  | .ofNat n => Nat.toDigits 10 n
  | .negSucc n => '-' :: Nat.toDigits 10 (n + 1)

def numberChars : Number → List Char
  | .int value => intChars value
  | .float value => value.jsonText

mutual

def chars : Json → List Char
  | .null => ['n', 'u', 'l', 'l']
  | .bool true => ['t', 'r', 'u', 'e']
  | .bool false => ['f', 'a', 'l', 's', 'e']
  | .number value => numberChars value
  | .text value => quote value.toList
  | .list [] => ['[', ']']
  | .list (item :: items) => '[' :: chars item ++ itemChars items
  | .dict [] => ['{', '}']
  | .dict ((key, value) :: entries) =>
    '{' :: quote key.toList ++ ':' :: chars value ++ entryChars entries

def itemChars : List Json → List Char
  | [] => [']']
  | item :: items => ',' :: chars item ++ itemChars items

def entryChars : List (String × Json) → List Char
  | [] => ['}']
  | (key, value) :: entries =>
    ',' :: quote key.toList ++ ':' :: chars value ++ entryChars entries

end

def compact (value : Json) : String := String.ofList value.chars

end CallRouter.Json
