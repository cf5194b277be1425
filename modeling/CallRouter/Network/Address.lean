import CallRouter.Text.Numeral

namespace CallRouter.Network

inductive Host where
  | v4 (octets : List Nat)
  | v6 (groups : List Nat) (zone : Nat)
  deriving DecidableEq, Repr, Inhabited

structure Address where
  host : Host
  port : Nat
  deriving DecidableEq, Repr, Inhabited

namespace Address

abbrev Read (α : Type) := List Char → Option (α × List Char)

def digit? (radix : Nat) (c : Char) : Option Nat :=
  let value :=
    if '0' ≤ c && c ≤ '9' then c.toNat - '0'.toNat
    else if 'a' ≤ c && c ≤ 'f' then c.toNat - 'a'.toNat + 10
    else if 'A' ≤ c && c ≤ 'F' then c.toNat - 'A'.toNat + 10
    else radix
  if value < radix then some value else none

def readDigits (radix : Nat) : List Char → List Nat × List Char
  | [] => ([], [])
  | c :: rest =>
    match digit? radix c with
    | none => ([], c :: rest)
    | some digit =>
      let (digits, rest) := readDigits radix rest
      (digit :: digits, rest)

def readNumber (radix limit : Nat) : Read Nat := fun chars =>
  let (digits, rest) := readDigits radix chars
  let value := digits.foldl (fun value digit => radix * value + digit) 0
  if digits.isEmpty || limit < value then none else some (value, rest)

def readOctet : Read Nat := fun chars => do
  let (value, rest) ← readNumber 10 255 chars
  if (Nat.toDigits 10 value).length + rest.length = chars.length then return (value, rest)
  else none

def readGroup : Read Nat := fun chars => do
  let (value, rest) ← readNumber 16 65535 chars
  if chars.length ≤ rest.length + 4 then return (value, rest) else none

def readChar (expected : Char) : List Char → Option (List Char)
  | [] => none
  | c :: rest => if c = expected then some rest else none

def readOctets : Read (List Nat) := fun chars => do
  let (a, rest) ← readOctet chars
  let (b, rest) ← readChar '.' rest >>= readOctet
  let (c, rest) ← readChar '.' rest >>= readOctet
  let (d, rest) ← readChar '.' rest >>= readOctet
  return ([a, b, c, d], rest)

def groupsOfOctets : List Nat → List Nat
  | [a, b, c, d] => [256 * a + b, 256 * c + d]
  | _ => []

def readGroups : Nat → Bool → List Char → List Nat × Bool × List Char
  | 0, _, chars => ([], false, chars)
  | room + 1, first, chars =>
    let start := if first then some chars else readChar ':' chars
    match (if 0 < room then start >>= readOctets else none) with
    | some (octets, rest) => (groupsOfOctets octets, true, rest)
    | none =>
      match start >>= readGroup with
      | none => ([], false, chars)
      | some (group, rest) =>
        let (groups, octets, rest) := readGroups room false rest
        (group :: groups, octets, rest)

def readV6 : Read (List Nat) := fun chars => do
  let (front, octets, rest) := readGroups 8 true chars
  if front.length = 8 then return (front, rest)
  if octets then none
  let rest ← readChar ':' rest >>= readChar ':'
  let (back, _, rest) := readGroups (7 - front.length) true rest
  return (front ++ List.replicate (8 - front.length - back.length) 0 ++ back, rest)

def readZone (chars : List Char) : Nat × List Char :=
  (readChar '%' chars >>= readNumber 10 4294967295).getD (0, chars)

def readPort : Read Nat := fun chars => readChar ':' chars >>= readNumber 10 65535

def readV4Address : Read Address := fun chars => do
  let (octets, rest) ← readOctets chars
  let (port, rest) ← readPort rest
  return (⟨.v4 octets, port⟩, rest)

def readV6Address : Read Address := fun chars => do
  let (groups, rest) ← readChar '[' chars >>= readV6
  let (zone, rest) := readZone rest
  let (port, rest) ← readChar ']' rest >>= readPort
  return (⟨.v6 groups zone, port⟩, rest)

def ofText? (text : String) : Option Address :=
  match (readV4Address text.toList).orElse fun _ => readV6Address text.toList with
  | some (address, []) => some address
  | _ => none

open Text (decimal)

def octetsText (octets : List Nat) : String := String.intercalate "." (octets.map decimal)

def groupsText (groups : List Nat) : String :=
  String.intercalate ":" (groups.map fun group => String.ofList (Nat.toDigits 16 group))

def zeros (groups : List Nat) : Nat := (groups.takeWhile (· == 0)).length

def longestZeros : List Nat → Nat × Nat
  | [] => (0, 0)
  | group :: rest =>
    let (place, length) := longestZeros rest
    let here := zeros (group :: rest)
    if 0 < here && length ≤ here then (0, here) else (place + 1, length)

def v6Text (groups : List Nat) : String :=
  match groups with
  | [0, 0, 0, 0, 0, 0xFFFF, high, low] =>
    "::ffff:" ++ octetsText [high / 256, high % 256, low / 256, low % 256]
  | _ =>
    let (place, length) := longestZeros groups
    if length < 2 then groupsText groups
    else groupsText (groups.take place) ++ "::" ++ groupsText (groups.drop (place + length))

def text (address : Address) : String :=
  let host := match address.host with
    | .v4 octets => octetsText octets
    | .v6 groups 0 => "[" ++ v6Text groups ++ "]"
    | .v6 groups zone => "[" ++ v6Text groups ++ "%" ++ decimal zone ++ "]"
  host ++ ":" ++ decimal address.port

end Address

end CallRouter.Network
