namespace ClassFacts.Decimal

/-- The magnitude `mantissa * 2 ^ exponent` of a finite 64-bit float. -/
structure Magnitude where
  mantissa : Nat
  exponent : Int
  deriving DecidableEq, Repr

namespace Magnitude

def zero : Magnitude := ⟨0, -1074⟩

def numerator (x : Magnitude) : Nat :=
  x.mantissa * Nat.pow 2 x.exponent.toNat

def denominator (x : Magnitude) : Nat :=
  Nat.pow 2 (-x.exponent).toNat

/-- The quotient rounded to a whole number, a half going to the even neighbour. -/
def divideToEven (num den : Nat) : Nat :=
  let q := num / den
  let twice := 2 * (num % den)
  if twice < den then q
  else if den < twice then q + 1
  else if q % 2 = 0 then q else q + 1

/-- The `e` for which `num / den` lies in `[2 ^ e, 2 ^ (e + 1))`. -/
def binaryExponent (num den : Nat) : Int :=
  let e : Int := (num.log2 : Int) - den.log2
  if num * Nat.pow 2 (-e).toNat < den * Nat.pow 2 e.toNat then e - 1 else e

/-- The nearest magnitude of a fraction, unless it is too large for a finite one. -/
def ofFraction? (num den : Nat) : Option Magnitude :=
  if num = 0 then some zero
  else
    let e := max (binaryExponent num den - 52) (-1074)
    let m := divideToEven (num * Nat.pow 2 (-e).toNat) (den * Nat.pow 2 e.toNat)
    let x : Magnitude := if m = Nat.pow 2 53 then ⟨Nat.pow 2 52, e + 1⟩ else ⟨m, e⟩
    if 971 < x.exponent then none else some x

def times? (x y : Magnitude) : Option Magnitude :=
  ofFraction? (x.numerator * y.numerator) (x.denominator * y.denominator)

def over? (x y : Magnitude) : Option Magnitude :=
  ofFraction? (x.numerator * y.denominator) (x.denominator * y.numerator)

/-- The nearest magnitude of a power of ten up to `10 ^ 308`. -/
def powerOfTen? (k : Nat) : Option Magnitude :=
  ofFraction? (Nat.pow 10 k) 1

/-- The magnitude read for `significand * 10 ^ exponent`. The significand, the power of ten and
their product or quotient are each rounded, and a small value is divided by `10 ^ 308` first. -/
def ofScientific? (significand : Nat) (exponent : Int) : Option Magnitude := do
  let x ← ofFraction? significand 1
  if x.mantissa = 0 then some zero
  else if 308 < exponent then none
  else if 0 ≤ exponent then x.times? (← powerOfTen? exponent.toNat)
  else
    let k := (-exponent).toNat
    if k ≤ 308 then x.over? (← powerOfTen? k)
    else if k ≤ 616 then
      let small ← x.over? (← powerOfTen? 308)
      small.over? (← powerOfTen? (k - 308))
    else some zero

end Magnitude

end ClassFacts.Decimal
