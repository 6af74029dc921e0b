import ClassFacts.Yaml.Text

namespace ClassFacts.Yaml.PlainScalar

def isFlowMark (c : Char) : Bool :=
  c == ',' || c == '[' || c == ']' || c == '\x7b' || c == '\x7d'

/-- Whether a flow mark or a question mark comes next, before which a colon cannot stand. -/
def colonClash : List Char → Bool
  | c :: _ => isFlowMark c || c == '?'
  | [] => false

/-- The characters up to white space or to a mark that ends a plain scalar, and what follows. -/
def word (flow : Bool) : List Char → Option (List Char × List Char)
  | [] => some ([], [])
  | c :: rest =>
    if isGapChar c then some ([], c :: rest)
    else if flow ∧ c = ':' ∧ colonClash rest then none
    else if (c = ':' ∧ atGap rest) ∨ (flow ∧ isFlowMark c) then some ([], c :: rest)
    else do
      let (chars, rest) ← word flow rest
      return (c :: chars, rest)

/-- The lines of white space behind its first break. -/
def laterLines : List Char → List (List Char)
  | [] => []
  | c :: rest =>
    if isBreak c then rest.takeWhile (fun c => !isBreak c) :: laterLines rest
    else laterLines rest

/-- Whether a tab stands left of the column from which the scalar's lines may start. -/
def tabTooEarly (start : Nat) (gap : List Char) : Bool :=
  (laterLines gap).any fun line =>
    line.contains '\t' && (line.takeWhile (· == ' ')).length < start

/-- Reads the words of a scalar from a place on, behind the given white space; the bound is on
their number. Says also whether a line break follows the last word. -/
def words (flow : Bool) (start : Nat) : Nat → Gap → Cursor → Option (List Char × Bool × Cursor)
  | 0, _, _ => none
  | bound + 1, gap, c => do
    if (c.column = 0 ∧ (documentMark? c.rest).isSome) ∨ c.rest.head? = some '#' then
      return ([], gap.hasBreak, c)
    let (chars, rest) ← word flow c.rest
    if chars.isEmpty then return ([], gap.hasBreak, c)
    let c := c.upTo rest
    let space := rest.takeWhile isGapChar
    if space.isEmpty then return (gap.folded ++ chars, false, c)
    if tabTooEarly start space then none
    let c := c.past space (rest.dropWhile isGapChar)
    let next := Gap.ofText false space
    if !flow ∧ c.column < start then return (gap.folded ++ chars, next.hasBreak, c)
    let (more, broken, c) ← words flow start bound next c
    return (gap.folded ++ chars ++ more, broken, c)

/-- Reads a plain scalar whose further lines start at column `start` or later. -/
def read (flow : Bool) (start : Nat) (c : Cursor) : Option (List Char × Bool × Cursor) :=
  words flow start (c.rest.length + 1) (.blanks []) c

end ClassFacts.Yaml.PlainScalar
