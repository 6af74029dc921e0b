import ClassFacts.Json.Fault

namespace ClassFacts.Json

/-- A value read from the front of a text, and the text after it. -/
abbrev Front (α : Type) := α × List Char

def isSpace (c : Char) : Bool :=
  c == ' ' || c == '\t' || c == '\n' || c == '\r'

def skipSpace (text : List Char) : List Char :=
  text.dropWhile isSpace

/-- What is wrong with a text in which something else had to follow. -/
def unexpected (text : List Char) : Fault :=
  if text.isEmpty then .ended else .malformed

/-- Reads the given characters. -/
def readWord : List Char → List Char → Except Fault (List Char)
  | [], text => .ok text
  | _ :: _, [] => .error .ended
  | w :: word, c :: text => if c = w then readWord word text else .error .malformed

def hexValue? (c : Char) : Option Nat :=
  if '0' ≤ c ∧ c ≤ '9' then some (c.toNat - '0'.toNat)
  else if 'a' ≤ c ∧ c ≤ 'f' then some (c.toNat - 'a'.toNat + 10)
  else if 'A' ≤ c ∧ c ≤ 'F' then some (c.toNat - 'A'.toNat + 10)
  else none

/-- The 16-bit unit written by four hexadecimal digits. -/
def hexUnit? (a b c d : Char) : Option Nat := do
  return (((← hexValue? a) * 16 + (← hexValue? b)) * 16 + (← hexValue? c)) * 16 + (← hexValue? d)

/-- A text that ends within four octets after `\u` is cut off; otherwise the digits are wrong. -/
def hexFault (text : List Char) : Fault :=
  if text.foldl (fun n c => n + c.utf8Size) 0 < 4 then .ended else .malformed

/-- Reads the unit of a `\u` escape. -/
def readUnit : List Char → Except Fault (Front Nat)
  | a :: b :: c :: d :: rest =>
    match hexUnit? a b c d with
    | some unit => .ok (unit, rest)
    | none => .error .malformed
  | text => .error (hexFault text)

/-- The character of a one-letter escape. -/
def shortEscape? (c : Char) : Option Char :=
  if c = '"' ∨ c = '\\' ∨ c = '/' then some c
  else if c = 'b' then some '\x08'
  else if c = 'f' then some '\x0c'
  else if c = 'n' then some '\n'
  else if c = 'r' then some '\r'
  else if c = 't' then some '\t'
  else none

def isLeading (unit : Nat) : Bool :=
  0xD800 ≤ unit && unit < 0xDC00

def isTrailing (unit : Nat) : Bool :=
  0xDC00 ≤ unit && unit < 0xE000

/-- The character of two surrogate units. -/
def joinUnits (leading trailing : Nat) : Char :=
  Char.ofNat ((leading - 0xD800) * 0x400 + (trailing - 0xDC00) + 0x10000)

/-- Reads the character after `\u`, which takes a second escape if its unit is a leading
surrogate. -/
def readEscapedChar (text : List Char) : Except Fault (Front Char) := do
  let (unit, text) ← readUnit text
  if isTrailing unit then throw .malformed
  else if isLeading unit then
    let text ← readWord ['\\', 'u'] text
    let (second, text) ← readUnit text
    if isTrailing second then return (joinUnits unit second, text) else throw .malformed
  else return (Char.ofNat unit, text)

/-- Reads one character of a string, or its closing quotation mark. -/
def readStringChar : List Char → Except Fault (Front (Option Char))
  | [] => .error .ended
  | '"' :: text => .ok (none, text)
  | '\\' :: [] => .error .ended
  | '\\' :: e :: text =>
    match shortEscape? e with
    | some c => .ok (some c, text)
    | none =>
      if e = 'u' then do
        let (c, text) ← readEscapedChar text
        return (some c, text)
      else .error .malformed
  | c :: text => if c.toNat < 0x20 then .error .malformed else .ok (some c, text)

/-- Reads characters up to the closing quotation mark; the bound is on their number. -/
def readChars : Nat → List Char → Except Fault (Front (List Char))
  | 0, _ => .error .ended
  | bound + 1, text => do
    match ← readStringChar text with
    | (none, text) => return ([], text)
    | (some c, text) =>
      let (cs, text) ← readChars bound text
      return (c :: cs, text)

/-- Reads a string after its opening quotation mark. A text has room for no more characters
than its own length. -/
def readString (text : List Char) : Except Fault (Front String) := do
  let (cs, text) ← readChars (text.length + 1) text
  return (String.ofList cs, text)

/-- A number: a whole one that fits in 64 bits, signed or unsigned, or a float. -/
inductive Number
  | integer (value : Int)
  | float (value : Decimal.Binary64)
  deriving DecidableEq, Repr

/-- The parts of a number as written. -/
structure Numeral where
  negative : Bool
  whole : List Char
  fraction : Option (List Char)
  exponent : Option (Bool × List Char)
  deriving DecidableEq, Repr

def isDigit (c : Char) : Bool :=
  '0' ≤ c && c ≤ '9'

def digits (text : List Char) : List Char :=
  text.takeWhile isDigit

def afterDigits (text : List Char) : List Char :=
  text.dropWhile isDigit

def digitValue (c : Char) : Nat :=
  c.toNat - '0'.toNat

def digitsValue (ds : List Char) : Nat :=
  ds.foldl (fun n d => n * 10 + digitValue d) 0

/-- Reads at least one digit. -/
def readDigits (text : List Char) : Except Fault (Front (List Char)) :=
  match digits text with
  | [] => .error (unexpected text)
  | ds => .ok (ds, afterDigits text)

/-- Reads the digits before the point, which start with a zero only if that is all. -/
def readWhole (text : List Char) : Except Fault (Front (List Char)) := do
  let (ds, text) ← readDigits text
  if ds.head? = some '0' ∧ 1 < ds.length then throw .malformed else return (ds, text)

def readFraction : List Char → Except Fault (Front (Option (List Char)))
  | '.' :: text => do
    let (ds, text) ← readDigits text
    return (some ds, text)
  | text => .ok (none, text)

def readSign : List Char → Bool × List Char
  | '-' :: text => (true, text)
  | '+' :: text => (false, text)
  | text => (false, text)

def readExponent : List Char → Except Fault (Front (Option (Bool × List Char)))
  | c :: text =>
    if c = 'e' ∨ c = 'E' then do
      let (negative, text) := readSign text
      let (ds, text) ← readDigits text
      return (some (negative, ds), text)
    else .ok (none, c :: text)
  | [] => .ok (none, [])

def readMinus : List Char → Bool × List Char
  | '-' :: text => (true, text)
  | text => (false, text)

def readNumeral (text : List Char) : Except Fault (Front Numeral) := do
  let (negative, text) := readMinus text
  let (whole, text) ← readWhole text
  let (fraction, text) ← readFraction text
  let (exponent, text) ← readExponent text
  return (⟨negative, whole, fraction, exponent⟩, text)

/-- Appends digits to a significand while it fits in 64 bits; also says how many did not. -/
def absorb (significand : Nat) : List Char → Nat × Nat
  | [] => (significand, 0)
  | d :: ds =>
    let next := significand * 10 + digitValue d
    if next < Nat.pow 2 64 then absorb next ds else (significand, ds.length + 1)

/-- The float of a numeral. Digits that do not fit in the significand count only by their
place. A numeral too large for a float has none. -/
def Numeral.float? (n : Numeral) : Option Decimal.Binary64 := do
  let (significand, dropped) := absorb 0 n.whole
  let fraction := n.fraction.getD []
  let (significand, lost) := absorb significand fraction
  let shift : Int :=
    match n.exponent with
    | none => 0
    | some (negative, ds) => if negative then -(digitsValue ds : Int) else digitsValue ds
  let exponent := (dropped : Int) - (fraction.length - lost : Nat) + shift
  return ⟨n.negative, ← Decimal.Magnitude.ofScientific? significand exponent⟩

/-- The whole number of a numeral without fraction and exponent, if it fits in 64 bits.
A negative zero is a float. -/
def Numeral.integer? (n : Numeral) : Option Int :=
  if n.fraction.isSome ∨ n.exponent.isSome then none
  else
    let value := digitsValue n.whole
    if n.negative then
      if 0 < value ∧ value ≤ Nat.pow 2 63 then some (-(value : Int)) else none
    else if value < Nat.pow 2 64 then some value else none

def Numeral.number? (n : Numeral) : Option Number :=
  match n.integer? with
  | some value => some (.integer value)
  | none => n.float?.map .float

def readNumber (text : List Char) : Except Fault (Front Number) := do
  let (n, text) ← readNumeral text
  match n.number? with
  | some number => return (number, text)
  | none => throw .malformed

/-- What comes next in a container: its closing bracket or another item. -/
inductive Next
  | close (rest : List Char)
  | item (text : List Char)
  deriving DecidableEq, Repr

/-- Finds the next item of a container that closes with `bracket`. Items other than the first
follow a comma, and a comma is followed by an item. -/
def next (bracket : Char) (first : Bool) (text : List Char) : Except Fault Next :=
  match skipSpace text with
  | [] => .error .ended
  | c :: rest =>
    if c = bracket then .ok (.close rest)
    else if first then .ok (.item (c :: rest))
    else if c = ',' then
      match skipSpace rest with
      | [] => .error .ended
      | d :: rest => if d = bracket then .error .malformed else .ok (.item (d :: rest))
    else .error .malformed

/-- Reads one character after white space. -/
def readMark (mark : Char) (text : List Char) : Except Fault (List Char) :=
  match skipSpace text with
  | [] => .error .ended
  | c :: rest => if c = mark then .ok rest else .error .malformed

/-- Reads the items of an array after its opening bracket; the bound is on their number. -/
def readItems {α : Type} (item : List Char → Except Fault (Front α)) : Nat → Bool → List Char → Except Fault (Front (List α))
  | 0, _, _ => .error .malformed
  | bound + 1, first, text => do
    match ← next ']' first text with
    | .close text => return ([], text)
    | .item text =>
      let (x, text) ← item text
      let (xs, text) ← readItems item bound false text
      return (x :: xs, text)

/-- Reads the key of an entry after white space. -/
def readKey (text : List Char) : Except Fault (Front String) := do
  readString (← readMark '"' text)

/-- Reads the entries of an object after its opening brace, given how an entry changes what has
been gathered so far; the bound is on their number. -/
def readEntries {σ : Type} (entry : σ → String → List Char → Except Fault (Front σ)) :
    Nat → Bool → σ → List Char → Except Fault (Front σ)
  | 0, _, _, _ => .error .malformed
  | bound + 1, first, gathered, text => do
    match ← next '\x7d' first text with
    | .close text => return (gathered, text)
    | .item text =>
      let (key, text) ← readKey text
      let (gathered, text) ← entry gathered key text
      readEntries entry bound false gathered text

end ClassFacts.Json
