import ClassFacts.Decimal.Shortest

namespace ClassFacts.Decimal

/-- A finite 64-bit float. -/
structure Binary64 where
  negative : Bool
  magnitude : Magnitude
  deriving DecidableEq, Repr

/-- How floats are written: positionally when the power of ten of the first digit lies from
`lowest` to `highest`, and in scientific notation otherwise. -/
structure Layout where
  lowest : Int
  highest : Int
  exponentDigits : Nat
  deriving DecidableEq, Repr

/-- Positional from 0.00001 to below 10 ^ 16; an exponent has a sign and no least width. -/
def Layout.standard : Layout := ⟨-5, 15, 1⟩

def zeros (n : Nat) : List Char :=
  List.replicate n '0'

/-- A digit, then the others after a point. -/
def pointed (whole fraction : List Char) : List Char :=
  whole ++ '.' :: (if fraction.isEmpty then ['0'] else fraction)

def positional (digits : List Char) (exponent : Int) : List Char :=
  if 0 ≤ exponent then pointed (digits ++ zeros exponent.toNat) []
  else
    let places := (-exponent).toNat
    if places < digits.length then
      pointed (digits.take (digits.length - places)) (digits.drop (digits.length - places))
    else pointed ['0'] (zeros (places - digits.length) ++ digits)

def Layout.exponentText (layout : Layout) (e : Int) : List Char :=
  let digits := Nat.toDigits 10 e.natAbs
  'e' :: (if e < 0 then '-' else '+') :: zeros (layout.exponentDigits - digits.length) ++ digits

def Layout.magnitudeText (layout : Layout) (x : Magnitude) : List Char :=
  let s := x.shortest
  let digits := Nat.toDigits 10 s.digits
  let top := s.exponent + digits.length - 1
  if layout.lowest ≤ top ∧ top ≤ layout.highest then positional digits s.exponent
  else
    match digits with
    | [] => []
    | first :: others =>
      (if others.isEmpty then [first] else first :: '.' :: others) ++ layout.exponentText top

/-- The text of a float: the fewest digits that read back. -/
def Binary64.text (x : Binary64) : List Char :=
  (if x.negative then ['-'] else []) ++ Layout.standard.magnitudeText x.magnitude

end ClassFacts.Decimal
