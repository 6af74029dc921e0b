import ClassFacts.Yaml.Text

namespace ClassFacts.Yaml.QuotedScalar

/-- The character behind a one-letter escape. -/
def escape? : Char → Option Char
  | '0' => some '\x00'
  | 'a' => some '\x07'
  | 'b' => some '\x08'
  | 't' => some '\t'
  | '\t' => some '\t'
  | 'n' => some '\n'
  | 'v' => some '\x0b'
  | 'f' => some '\x0c'
  | 'r' => some '\r'
  | 'e' => some '\x1b'
  | ' ' => some ' '
  | '"' => some '"'
  | '/' => some '/'
  | '\\' => some '\\'
  | 'N' => some '\x85'
  | '_' => some '\xa0'
  | 'L' => some '\u2028'
  | 'P' => some '\u2029'
  | _ => none

/-- How many hexadecimal digits follow the letter of a numeric escape. -/
def escapeLength? : Char → Option Nat
  | 'x' => some 2
  | 'u' => some 4
  | 'U' => some 8
  | _ => none

/-- The character with the given code, unless that is a surrogate or out of range. -/
def character? (code : Nat) : Option Char :=
  if 0xD800 ≤ code ∧ code ≤ 0xDFFF ∨ 0x10FFFF < code then none else some (Char.ofNat code)

/-- The number written by some hexadecimal digits. -/
def hexNumber? (digits : List Char) : Option Nat :=
  digits.foldlM (fun n c => (hexValue? c).map (n * 16 + ·)) 0

/-- Reads an escape after its backslash and letter. -/
def readEscape (e : Char) (rest : List Char) : Option (Char × List Char) :=
  match escape? e with
  | some c => some (c, rest)
  | none => do
    let n ← escapeLength? e
    if rest.length < n then none
    let c ← character? (← hexNumber? (rest.take n))
    return (c, rest.drop n)

/-- How a run of characters without white space ends. -/
inductive RunEnd
  | quote
  | gap
  | escapedBreak
  deriving DecidableEq, Repr

/-- The characters up to white space or the closing mark of a single-quoted scalar. A doubled
mark stands for one. -/
def singleRun : List Char → List Char × RunEnd × List Char
  | [] => ([], .gap, [])
  | '\'' :: '\'' :: rest =>
    let (chars, stop, rest) := singleRun rest
    ('\'' :: chars, stop, rest)
  | '\'' :: rest => ([], .quote, rest)
  | c :: rest =>
    if isGapChar c then ([], .gap, c :: rest)
    else
      let (chars, stop, rest) := singleRun rest
      (c :: chars, stop, rest)

/-- The characters up to white space, an escaped line break or the closing mark of a
double-quoted scalar; the bound is on their number. -/
def doubleRun : Nat → List Char → Option (List Char × RunEnd × List Char)
  | 0, _ => none
  | _ + 1, [] => some ([], .gap, [])
  | _ + 1, '"' :: rest => some ([], .quote, rest)
  | _ + 1, '\\' :: [] => none
  | bound + 1, '\\' :: e :: rest =>
    if isBreak e then some ([], .escapedBreak, rest)
    else do
      let (c, rest) ← readEscape e rest
      let (chars, stop, rest) ← doubleRun bound rest
      return (c :: chars, stop, rest)
  | bound + 1, c :: rest =>
    if isGapChar c then some ([], .gap, c :: rest)
    else do
      let (chars, stop, rest) ← doubleRun bound rest
      return (c :: chars, stop, rest)

def run (single : Bool) (text : List Char) : Option (List Char × RunEnd × List Char) :=
  if single then some (singleRun text) else doubleRun (text.length + 1) text

/-- Reads a quoted scalar after its opening mark; the bound is on the number of runs. A document
mark cannot stand at the start of its lines. -/
def readRuns (single : Bool) : Nat → Cursor → Option (List Char × Cursor)
  | 0, _ => none
  | bound + 1, c => do
    if c.column = 0 ∧ (documentMark? c.rest).isSome then none
    if c.rest.isEmpty then none
    let (chars, stop, rest) ← run single c.rest
    match stop with
    | .quote => return (chars, c.upTo rest)
    | _ =>
      let escaped := stop == .escapedBreak
      let space := rest.takeWhile isGapChar
      let c := c.upTo rest
      let c := if escaped then { c with line := c.line + 1, column := 0 } else c
      let c := c.past space (rest.dropWhile isGapChar)
      let (more, c) ← readRuns single bound c
      return (chars ++ (Gap.ofText escaped space).folded ++ more, c)

/-- Reads a quoted scalar after its opening mark. -/
def read (single : Bool) (c : Cursor) : Option (List Char × Cursor) :=
  readRuns single (c.rest.length + 1) c

end ClassFacts.Yaml.QuotedScalar
