namespace CallRouter.Text

def decimal (n : Nat) : String := String.ofList (Nat.toDigits 10 n)

def hexadecimal (n : Nat) : String := "0x" ++ String.ofList (Nat.toDigits 16 n)

def hexValue (c : Char) : Option Nat :=
  if '0' ≤ c && c ≤ '9' then some (c.toNat - 48)
  else if 'a' ≤ c && c ≤ 'f' then some (c.toNat - 87)
  else if 'A' ≤ c && c ≤ 'F' then some (c.toNat - 55)
  else none

def isDecimalDigit (c : Char) : Bool := '0' ≤ c && c ≤ '9'

def valueOfDigits (digits : List Char) : Nat :=
  digits.foldl (fun value digit => 10 * value + (digit.toNat - '0'.toNat)) 0

def wordLimit : Nat := 18446744073709551616

/-- The number below `2 ^ 64` that a text of digits stands for; a plus sign may come first. -/
def word? (text : String) : Option Nat :=
  let digits := match text.toList with
    | '+' :: digits => digits
    | digits => digits
  if digits.isEmpty || !digits.all isDecimalDigit then none
  else
    let value := valueOfDigits digits
    if value < wordLimit then some value else none

end CallRouter.Text
