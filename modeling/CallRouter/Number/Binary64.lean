namespace CallRouter

/--
The number `mantissa * 2 ^ exponent`, or its negative. Zero has both signs. The mantissa is below
`2 ^ 53`, and at least `2 ^ 52` unless the exponent is the least one, `-1074`.
-/
structure Binary64 where
  negative : Bool
  mantissa : Nat
  exponent : Int
  deriving DecidableEq, Repr, Inhabited

namespace Binary64

def zero (negative : Bool) : Binary64 := ⟨negative, 0, -1074⟩

def isZero (x : Binary64) : Bool := x.mantissa == 0

def withSign (x : Binary64) (negative : Bool) : Binary64 := { x with negative }

def fraction (x : Binary64) : Nat × Nat :=
  if 0 ≤ x.exponent then (x.mantissa <<< x.exponent.toNat, 1)
  else (x.mantissa, 1 <<< (-x.exponent).toNat)

def units (x : Binary64) : Int :=
  let count : Int := x.mantissa <<< (x.exponent + 1074).toNat
  if x.negative then -count else count

def roundHalfEven (numerator denominator : Nat) : Nat :=
  let below := numerator / denominator
  let rest := 2 * (numerator % denominator)
  if rest > denominator || (rest == denominator && below % 2 == 1) then below + 1 else below

def descale (numerator denominator : Nat) (exponent : Int) : Nat × Nat :=
  if 0 ≤ exponent then (numerator, denominator <<< exponent.toNat)
  else (numerator <<< (-exponent).toNat, denominator)

/--
The number nearest to a fraction, of two equally near ones the one with the even mantissa, and none
past the largest finite number. The first guess at the exponent leaves a quotient below `2 ^ 54`,
and above `2 ^ 52` unless the exponent is the least one.
-/
def nearest (numerator denominator : Nat) : Option Binary64 :=
  if numerator = 0 then some (zero false)
  else
    let guess : Int := (Nat.log2 numerator : Int) - Nat.log2 denominator - 53
    let guess := if guess < -1074 then -1074 else guess
    let (high, low) := descale numerator denominator guess
    let exponent := if high ≥ 9007199254740992 * low then guess + 1 else guess
    let (high, low) := descale numerator denominator exponent
    let mantissa := roundHalfEven high low
    let rounded : Binary64 :=
      if mantissa = 9007199254740992 then ⟨false, 4503599627370496, exponent + 1⟩
      else ⟨false, mantissa, exponent⟩
    if rounded.exponent > 971 then none else some rounded

def times (x y : Binary64) : Option Binary64 :=
  let (a, b) := x.fraction
  let (c, d) := y.fraction
  (nearest (a * c) (b * d)).map (·.withSign (x.negative != y.negative))

def dividedBy (x y : Binary64) : Option Binary64 :=
  let (a, b) := x.fraction
  let (c, d) := y.fraction
  (nearest (a * d) (b * c)).map (·.withSign (x.negative != y.negative))

def plus (x y : Binary64) : Option Binary64 :=
  let sum := x.units + y.units
  (nearest sum.natAbs (1 <<< 1074)).map (·.withSign (sum < 0))

def atMost (x y : Binary64) : Bool := decide (x.units ≤ y.units)

def ofInt (n : Int) : Option Binary64 :=
  (nearest n.natAbs 1).map (·.withSign (n < 0))

def floor (x : Binary64) : Int := x.units / (1 <<< 1074 : Nat)

end Binary64

end CallRouter
