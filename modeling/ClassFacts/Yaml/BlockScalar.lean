import ClassFacts.Yaml.Text

namespace ClassFacts.Yaml.BlockScalar

/-- What becomes of the line breaks at the end. -/
inductive Chomping
  | strip
  | clip
  | keep
  deriving DecidableEq, Repr

structure Header where
  chomping : Chomping
  increment : Option Nat
  deriving DecidableEq, Repr

def chomping? : Char → Option Chomping
  | '+' => some .keep
  | '-' => some .strip
  | _ => none

/-- Reads a digit other than zero, if there is a digit. -/
def readIncrement : List Char → Option (Option Nat × List Char)
  | c :: rest =>
    if c = '0' then none
    else if '1' ≤ c ∧ c ≤ '9' then some (some (c.toNat - '0'.toNat), rest)
    else some (none, c :: rest)
  | [] => some (none, [])

def readChomping : List Char → Option Chomping × List Char
  | c :: rest =>
    match chomping? c with
    | some chomping => (some chomping, rest)
    | none => (none, c :: rest)
  | [] => (none, [])

/-- Reads the indicators of a header, which come in either order. -/
def readIndicators (text : List Char) : Option (Header × List Char) := do
  match readChomping text with
  | (some chomping, rest) =>
    let (increment, rest) ← readIncrement rest
    return (⟨chomping, increment⟩, rest)
  | (none, rest) =>
    let (increment, rest) ← readIncrement rest
    match increment with
    | some n =>
      let (chomping, rest) := readChomping rest
      return (⟨chomping.getD .clip, some n⟩, rest)
    | none => return (⟨.clip, none⟩, rest)

/-- Empty lines and the indentation of the line after them. -/
structure Margin where
  breaks : List Char
  widest : Nat
  cursor : Cursor
  deriving DecidableEq, Repr

/-- Reads the empty lines before a line, and that line's indentation up to `indent` columns or,
while that is not known, of any width. A tab cannot stand in the indentation. -/
def readMargin (indent : Option Nat) : (text : List Char) → (widest : Nat) → Cursor → Option Margin
  | [], widest, c => some ⟨[], max widest c.column, c⟩
  | x :: rest, widest, c =>
    let inside : Bool := match indent with
      | none => true
      | some n => c.column < n
    if inside ∧ x = ' ' then readMargin indent rest widest (c.after x rest)
    else if inside ∧ x = '\t' then none
    else if isBreak x then do
      let m ← readMargin indent rest (max widest c.column) (c.after x rest)
      return { m with breaks := x :: m.breaks }
    else some ⟨[], max widest c.column, c⟩

def margin (indent : Option Nat) (c : Cursor) : Option Margin :=
  readMargin indent c.rest 0 c

/-- What the breaks between two lines contribute. A folded scalar joins lines by a space or
drops the first of several breaks, unless one of the lines starts with a blank. -/
def joint (literal : Bool) (first : Option Char) (more : List Char) (blankBefore blankAfter : Bool) :
    List Char :=
  match first with
  | none => more
  | some c =>
    if !literal ∧ c = '\n' ∧ !blankBefore ∧ !blankAfter then
      if more.isEmpty then [' '] else more
    else c :: more

/-- Reads the lines of a scalar, given the breaks before the first; the bound is on their
number. The breaks after the last line are given apart. -/
def readLines (literal : Bool) (indent : Nat) :
    Nat → (first : Option Char) → (more : List Char) → (blankBefore : Bool) → Cursor →
    Option (List Char × Option Char × List Char × Cursor)
  | 0, _, _, _, _ => none
  | bound + 1, first, more, blankBefore, c =>
    if c.column ≠ indent ∨ c.rest.isEmpty then some ([], first, more, c)
    else do
      let blank := match c.rest with
        | x :: _ => isSpaceOrTab x
        | [] => false
      let line := c.rest.takeWhile fun c => !isBreak c
      let after := c.rest.dropWhile fun c => !isBreak c
      let c := (c.upTo after).nextLine
      let m ← margin (some indent) c
      let (text, last, tail, c) ← readLines literal indent bound after.head? m.breaks blank m.cursor
      return (joint literal first more blankBefore blank ++ line ++ text, last, tail, c)

/-- The line breaks that a scalar keeps at its end. -/
def tailText (chomping : Chomping) (last : Option Char) (tail : List Char) : List Char :=
  match chomping with
  | .strip => []
  | .clip => last.toList
  | .keep => last.toList ++ tail

/-- Reads a block scalar after its mark, inside a block that is indented by `parent` columns or,
at the top, by less than none. -/
def read (literal : Bool) (parent : Int) (c : Cursor) : Option (List Char × Cursor) := do
  let (header, rest) ← readIndicators c.rest
  let c := (c.upTo (← skipToBreak rest)).nextLine
  let given := header.increment.map fun n => (max parent 0).toNat + n
  let m ← margin given c
  let indent := given.getD (max m.widest (max (parent + 1) 1).toNat)
  let (text, last, tail, c) ←
    readLines literal indent (c.rest.length + 1) none m.breaks false m.cursor
  return (text ++ tailText header.chomping last tail, c)

end ClassFacts.Yaml.BlockScalar
