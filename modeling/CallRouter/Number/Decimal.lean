import CallRouter.Number.Binary64

/-!
Decimal texts of binary64 numbers: reading a significand with a power of ten, the fewest digits
that read back, and the two layouts in which those digits are written.
-/

namespace CallRouter.Binary64

def tenTo (power : Nat) : Option Binary64 := nearest (Nat.pow 10 power) 1

def timesTenTo (x : Binary64) (power : Nat) : Option Binary64 :=
  if power ≤ 308 then tenTo power >>= x.times
  else if x.isZero then some x
  else none

/-- Division by a power of ten past the largest one in range goes in steps of that one. -/
def overTenTo (x : Binary64) (power : Nat) : Option Binary64 :=
  if power ≤ 308 then tenTo power >>= x.dividedBy
  else if x.isZero then some x
  else do
    let quotient ← tenTo 308 >>= x.dividedBy
    quotient.overTenTo (power - 308)
termination_by power

/--
The number read from a significand and a power of ten. The significand is rounded first, and its
product or quotient with the rounded power is rounded again.
-/
def ofDecimal (negative : Bool) (significand : Nat) (power : Int) : Option Binary64 := do
  let start ← nearest significand 1
  let scaled ← if 0 ≤ power then start.timesTenTo power.toNat else start.overTenTo (-power).toNat
  return scaled.withSign negative

structure Decimal where
  digits : Nat
  power : Int
  deriving DecidableEq, Repr, Inhabited

def Decimal.fraction (d : Decimal) : Nat × Nat :=
  if 0 ≤ d.power then (d.digits * Nat.pow 10 d.power.toNat, 1)
  else (d.digits, Nat.pow 10 (-d.power).toNat)

def digitCount (numerator denominator shift : Nat) : Nat :=
  (Nat.toDigits 10 (numerator * Nat.pow 10 shift / denominator)).length

def leadingPower (x : Binary64) : Int :=
  let (a, b) := x.fraction
  (digitCount a b 400 : Int) - 401

def readsBack (x : Binary64) (d : Decimal) : Bool :=
  nearest d.fraction.1 d.fraction.2 == some (x.withSign false)

/--
The decimal of a power of ten that is nearest to a positive number and reads back, among the two
around the number; of two equally near ones the even one.
-/
def ofPower (x : Binary64) (power : Int) : Option Decimal :=
  let (a, b) := x.fraction
  let (high, low) :=
    if 0 ≤ power then (a, b * Nat.pow 10 power.toNat) else (a * Nat.pow 10 (-power).toNat, b)
  let below : Decimal := ⟨high / low, power⟩
  let above : Decimal := ⟨high / low + 1, power⟩
  let (near, far) := if roundHalfEven high low = high / low then (below, above) else (above, below)
  [near, far].find? x.readsBack

def ofLength (x : Binary64) (length : Nat) : Option Decimal :=
  x.ofPower (x.leadingPower - length + 1)

/-- The fewest digits that read back; seventeen always do. -/
def shortest (x : Binary64) : Decimal :=
  ((List.range 17).findSome? fun length => x.ofLength (length + 1)).getD ⟨0, 0⟩

def shortestDigits (x : Binary64) : List Char × Int :=
  let decimal := x.shortest
  let digits := Nat.toDigits 10 decimal.digits
  let kept := (digits.reverse.dropWhile (· == '0')).reverse
  (kept, decimal.power + digits.length - 1)

def positional (digits : List Char) (leading : Int) : List Char × List Char :=
  if leading < 0 then (['0'], List.replicate (-leading - 1).toNat '0' ++ digits)
  else
    let whole := leading.toNat + 1
    (digits.take whole ++ List.replicate (whole - digits.length) '0', digits.drop whole)

def signed (negative : Bool) (text : List Char) : List Char :=
  if negative then '-' :: text else text

/--
The text of a number in JSON: positional from `1e-5` up to below `1e16`, there always with a
fraction, and else with an exponent whose sign is written.
-/
def jsonText (x : Binary64) : List Char :=
  signed x.negative <|
    if x.isZero then ['0', '.', '0']
    else
      let (digits, leading) := x.shortestDigits
      if -5 ≤ leading && leading ≤ 15 then
        let (whole, part) := positional digits leading
        whole ++ '.' :: (if part.isEmpty then ['0'] else part)
      else
        let (whole, part) := positional digits 0
        whole ++ (if part.isEmpty then [] else '.' :: part) ++ 'e' ::
          (if leading < 0 then '-' else '+') :: Nat.toDigits 10 leading.natAbs

/-- The text of a number in a metrics report: always positional, and a whole number has no point. -/
def plainText (x : Binary64) : List Char :=
  signed x.negative <|
    if x.isZero then ['0']
    else
      let (digits, leading) := x.shortestDigits
      let (whole, part) := positional digits leading
      whole ++ (if part.isEmpty then [] else '.' :: part)

end CallRouter.Binary64
