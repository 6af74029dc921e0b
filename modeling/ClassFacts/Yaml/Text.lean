namespace ClassFacts.Yaml

/-- The characters that a document may hold at all. -/
def isAllowed (c : Char) : Bool :=
  let code := c.toNat
  code == 0x09 || code == 0x0A || code == 0x0D || (0x20 ≤ code && code ≤ 0x7E) ||
    code == 0x85 || (0xA0 ≤ code && code ≤ 0xD7FF) || (0xE000 ≤ code && code ≤ 0xFFFD) ||
    (0x10000 ≤ code && code ≤ 0x10FFFF)

/-- Writes every line break as a line feed, the separators of lines and paragraphs apart. -/
def normalizeBreaks : List Char → List Char
  | [] => []
  | '\r' :: '\n' :: rest => '\n' :: normalizeBreaks rest
  | c :: rest =>
    (if c = '\r' ∨ c = '\x85' then '\n' else c) :: normalizeBreaks rest

def isSpaceOrTab (c : Char) : Bool :=
  c == ' ' || c == '\t'

/-- Line breaks of a normalized text. -/
def isBreak (c : Char) : Bool :=
  c == '\n' || c == '\u2028' || c == '\u2029'

def isGapChar (c : Char) : Bool :=
  isSpaceOrTab c || isBreak c

/-- Whether a text has nothing at its front but white space. -/
def atGap : List Char → Bool
  | [] => true
  | c :: _ => isGapChar c

def atBreakOrEnd : List Char → Bool
  | [] => true
  | c :: _ => isBreak c

/-- Letters, digits, underscores and dashes. -/
def isWordChar (c : Char) : Bool :=
  ('0' ≤ c && c ≤ '9') || ('A' ≤ c && c ≤ 'Z') || ('a' ≤ c && c ≤ 'z') || c == '_' || c == '-'

def hexValue? (c : Char) : Option Nat :=
  if '0' ≤ c ∧ c ≤ '9' then some (c.toNat - '0'.toNat)
  else if 'a' ≤ c ∧ c ≤ 'f' then some (c.toNat - 'a'.toNat + 10)
  else if 'A' ≤ c ∧ c ≤ 'F' then some (c.toNat - 'A'.toNat + 10)
  else none

/-- Skips blanks and a comment up to the end of the line. -/
def skipToBreak (text : List Char) : Option (List Char) :=
  let text := text.dropWhile isSpaceOrTab
  let text := if text.head? = some '#' then text.dropWhile (fun c => !isBreak c) else text
  if atBreakOrEnd text then some text else none

/-- Three dashes or dots that stand alone: the mark of a document's start or end. -/
def documentMark? : List Char → Option Char
  | a :: b :: c :: rest =>
    if a = b ∧ b = c ∧ (a = '-' ∨ a = '.') ∧ atGap rest then some a else none
  | _ => none

/-- How many octets a text takes up. -/
def octetCount (text : List Char) : Nat :=
  text.foldl (fun n c => n + c.utf8Size) 0

/-- A place in a text: what remains of it, and how many lines and octets and, in the line,
characters precede it. -/
structure Cursor where
  rest : List Char
  line : Nat
  column : Nat
  octet : Nat
  deriving DecidableEq, Repr

namespace Cursor

def start (text : List Char) : Cursor :=
  ⟨text, 0, 0, 0⟩

/-- The place after the character `x`, at which `rest` remains. -/
def after (c : Cursor) (x : Char) (rest : List Char) : Cursor :=
  if isBreak x then ⟨rest, c.line + 1, 0, c.octet + x.utf8Size⟩
  else ⟨rest, c.line, c.column + 1, c.octet + x.utf8Size⟩

/-- The place after `consumed`, at which `rest` remains. -/
def past (c : Cursor) : (consumed rest : List Char) → Cursor
  | [], rest => { c with rest := rest }
  | x :: consumed, rest => (c.after x rest).past consumed rest

/-- The place after a line break. -/
def nextLine (c : Cursor) : Cursor :=
  match c.rest with
  | [] => c
  | x :: rest => c.after x rest

/-- The place after `n` characters, none of which breaks the line. -/
def skip (c : Cursor) (n : Nat) : Cursor :=
  ⟨c.rest.drop n, c.line, c.column + n, c.octet + octetCount (c.rest.take n)⟩

/-- The place in the same line at which `rest` remains. -/
def upTo (c : Cursor) (rest : List Char) : Cursor :=
  c.skip (c.rest.length - rest.length)

end Cursor

/-- White space inside a scalar: blanks within a line, or line breaks. The first break may be
one that does not count. -/
inductive Gap
  | blanks (text : List Char)
  | breaks (first : Option Char) (more : List Char)
  deriving DecidableEq, Repr

namespace Gap

/-- White space behind a break that does not count if `escaped`. -/
def ofText (escaped : Bool) (text : List Char) : Gap :=
  match escaped, text.filter isBreak with
  | true, more => .breaks none more
  | false, [] => .blanks text
  | false, first :: more => .breaks (some first) more

/-- What white space contributes to a scalar: a single line feed becomes a space, and of several
the first is dropped. -/
def folded : Gap → List Char
  | .blanks text => text
  | .breaks none more => more
  | .breaks (some first) more =>
    if first = '\n' then (if more.isEmpty then [' '] else more) else first :: more

def hasBreak : Gap → Bool
  | .blanks _ => false
  | .breaks _ _ => true

end Gap

end ClassFacts.Yaml
