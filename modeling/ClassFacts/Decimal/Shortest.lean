import ClassFacts.Decimal.Binary64

namespace ClassFacts.Decimal

/-- The decimal number `digits * 10 ^ exponent`. -/
structure Scientific where
  digits : Nat
  exponent : Int
  deriving DecidableEq, Repr

/-- How many decimal digits a number has. -/
def digitCount (n : Nat) : Nat :=
  (Nat.toDigits 10 n).length

/-- The `e` for which `num / den` lies in `[10 ^ e, 10 ^ (e + 1))`. -/
def decimalExponent (num den : Nat) : Int :=
  if den ≤ num then (digitCount (num / den) : Int) - 1
  else
    let k := digitCount (den / num)
    if den ≤ num * Nat.pow 10 (k - 1) then -((k : Int) - 1) else -(k : Int)

/-- The numbers that round to `x` lie between `low` and `high` units of `2 ^ (exponent - 2)`;
the ends themselves do exactly if the mantissa is even. -/
structure Neighbourhood where
  low : Nat
  centre : Nat
  high : Nat
  closed : Bool
  exponent : Int
  deriving DecidableEq, Repr

def Magnitude.neighbourhood (x : Magnitude) : Neighbourhood where
  low := if x.mantissa = Nat.pow 2 52 ∧ -1074 < x.exponent then 4 * x.mantissa - 1
    else 4 * x.mantissa - 2
  centre := 4 * x.mantissa
  high := 4 * x.mantissa + 2
  closed := x.mantissa % 2 == 0
  exponent := x.exponent - 2

namespace Neighbourhood

/-- `c * 10 ^ g` compared with `u` units, as two whole numbers. -/
def scaled (h : Neighbourhood) (g : Int) (c u : Nat) : Nat × Nat :=
  (c * Nat.pow 10 g.toNat * Nat.pow 2 (-h.exponent).toNat,
    u * Nat.pow 2 h.exponent.toNat * Nat.pow 10 (-g).toNat)

def contains (h : Neighbourhood) (g : Int) (c : Nat) : Bool :=
  let (value, low) := h.scaled g c h.low
  let (_, high) := h.scaled g c h.high
  if h.closed then low ≤ value && value ≤ high else low < value && value < high

/-- The grid point `c * 10 ^ g` inside the neighbourhood that is nearest to its centre;
of two equally near ones the even one. -/
def nearestOn? (h : Neighbourhood) (g : Int) : Option Scientific :=
  let (unit, centre) := h.scaled g 1 h.centre
  let c := centre / unit
  match h.contains g c, h.contains g (c + 1) with
  | true, true =>
    let below := centre - c * unit
    let above := (c + 1) * unit - centre
    if below < above ∨ (below = above ∧ c % 2 = 0) then some ⟨c, g⟩ else some ⟨c + 1, g⟩
  | true, false => some ⟨c, g⟩
  | false, true => some ⟨c + 1, g⟩
  | false, false => none

end Neighbourhood

/-- Drops the zeros at the end of the digits. -/
def Scientific.normalize (x : Scientific) : Scientific :=
  let zeros := ((Nat.toDigits 10 x.digits).reverse.takeWhile (· == '0')).length
  ⟨x.digits / Nat.pow 10 zeros, x.exponent + zeros⟩

/-- The decimal with the fewest digits that rounds to `x`, the nearest of those. Seventeen
digits always suffice. -/
def Magnitude.shortest (x : Magnitude) : Scientific :=
  if x.mantissa = 0 then ⟨0, 0⟩
  else
    let h := x.neighbourhood
    let top := decimalExponent x.numerator x.denominator
    match (List.range 17).findSome? fun (n : Nat) => h.nearestOn? (top - n) with
    | some s => s.normalize
    | none => ⟨0, 0⟩

end ClassFacts.Decimal
