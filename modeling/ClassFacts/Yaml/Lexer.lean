import ClassFacts.Yaml.BlockScalar
import ClassFacts.Yaml.Directive
import ClassFacts.Yaml.PlainScalar
import ClassFacts.Yaml.QuotedScalar

namespace ClassFacts.Yaml

/-- A place at which the key of an entry may start: how many tokens precede it, and whether it
has to be a key, as nothing else can start a line at the block's own column. -/
structure KeyMark where
  number : Nat
  place : Cursor
  required : Bool
  deriving DecidableEq, Repr

/-- What the lexer knows at a place. The tokens are there latest first. `indent` is the column
of the innermost block, `-1` outside of all, and `outer` those of the blocks around it. For each
flow collection around the innermost one, and for the blocks around them all, there is a
possible key in `outerKeys`. -/
structure Lexer where
  cursor : Cursor
  tokens : List Token
  indent : Int
  outer : List Int
  keyAllowed : Bool
  key : Option KeyMark
  outerKeys : List (Option KeyMark)
  deriving DecidableEq, Repr

namespace Lexer

def start (text : List Char) : Lexer :=
  ⟨.start text, [], -1, [], true, none, []⟩

def inFlow (x : Lexer) : Bool :=
  !x.outerKeys.isEmpty

def emit (x : Lexer) (t : Token) : Lexer :=
  { x with tokens := t :: x.tokens }

/-- Puts a token behind the first `number` ones. -/
def insertAt (x : Lexer) (number : Nat) (t : Token) : Lexer :=
  let later := x.tokens.length - number
  { x with tokens := x.tokens.take later ++ t :: x.tokens.drop later }

/-- Passes `n` characters of a line. -/
def skip (x : Lexer) (n : Nat) : Lexer :=
  { x with cursor := x.cursor.skip n }

def moveTo (x : Lexer) (c : Cursor) : Lexer :=
  { x with cursor := c }

def allowKey (x : Lexer) (allowed : Bool) : Lexer :=
  { x with keyAllowed := allowed }

/-- Ends the blocks that are indented by more than `column`. -/
def closeBlocks (column : Int) : List Int → Int → List Token → List Int × Int × List Token
  | [], indent, tokens => ([], indent, tokens)
  | i :: outer, indent, tokens =>
    if column < indent then closeBlocks column outer i (.blockEnd :: tokens)
    else (i :: outer, indent, tokens)

def unroll (x : Lexer) (column : Int) : Lexer :=
  if x.inFlow then x
  else
    let (outer, indent, tokens) := closeBlocks column x.outer x.indent x.tokens
    { x with outer := outer, indent := indent, tokens := tokens }

/-- Starts a block at a column, unless one is open there; its first token goes behind the first
`number` ones. -/
def roll (x : Lexer) (column number : Nat) (t : Token) : Lexer :=
  if x.inFlow || column ≤ x.indent then x
  else { x with outer := x.indent :: x.outer, indent := column }.insertAt number t

/-- Whether a key cannot be at `k` any more: a key lies in one line and takes up no more than
1024 octets. -/
def isStale (c : Cursor) (k : KeyMark) : Bool :=
  k.place.line < c.line || k.place.octet + 1024 < c.octet

def checkStale (c : Cursor) : Option KeyMark → Option (Option KeyMark)
  | none => some none
  | some k => if isStale c k then (if k.required then none else some none) else some (some k)

/-- Gives up the keys that have become impossible. -/
def dropStale (x : Lexer) : Option Lexer := do
  let key ← checkStale x.cursor x.key
  let outerKeys ← x.outerKeys.mapM (checkStale x.cursor)
  return { x with key := key, outerKeys := outerKeys }

/-- Gives up the possible key of this level. -/
def dropKey (x : Lexer) : Option Lexer :=
  match x.key with
  | some k => if k.required then none else some { x with key := none }
  | none => some x

/-- Notes that a key may start here. -/
def saveKey (x : Lexer) : Option Lexer :=
  if x.keyAllowed then do
    let required := !x.inFlow && x.indent == x.cursor.column
    let x ← x.dropKey
    return { x with key := some ⟨x.tokens.length, x.cursor, required⟩ }
  else some x

/-- Passes white space, comments and line breaks. A tab is white space only where no key may
start, or inside a flow collection. A new line outside of these may start a key. A byte order
mark may stand at the start of a line and takes up a column. -/
def skipSpace (flow : Bool) :
    (text : List Char) → (comment keyAllowed : Bool) → Cursor → Cursor × Bool
  | [], _, keyAllowed, c => (c, keyAllowed)
  | x :: rest, comment, keyAllowed, c =>
    if isBreak x then skipSpace flow rest false (!flow || keyAllowed) (c.after x rest)
    else if comment || x == ' ' || (x == '\t' && (flow || !keyAllowed)) || x == '#' ||
        (x == '\ufeff' && c.column == 0) then
      skipSpace flow rest (comment || x == '#') keyAllowed (c.after x rest)
    else (c, keyAllowed)

def toToken (x : Lexer) : Lexer :=
  let (c, keyAllowed) := skipSpace x.inFlow x.cursor.rest false x.keyAllowed x.cursor
  { x with cursor := c, keyAllowed := keyAllowed }

def directive (x : Lexer) : Option Lexer := do
  let x ← (x.unroll (-1)).dropKey
  let (t, rest) ← readDirective (x.cursor.rest.drop 1)
  return ((x.moveTo (x.cursor.upTo rest).nextLine).emit t).allowKey false

def documentMark (x : Lexer) (t : Token) : Option Lexer := do
  let x ← (x.unroll (-1)).dropKey
  return ((x.allowKey false).skip 3).emit t

def flowStart (x : Lexer) (t : Token) : Option Lexer := do
  let x ← x.saveKey
  let x := { x with key := none, outerKeys := x.key :: x.outerKeys }
  return ((x.allowKey true).skip 1).emit t

def flowEnd (x : Lexer) (t : Token) : Option Lexer := do
  let x ← x.dropKey
  let x :=
    match x.outerKeys with
    | [] => x
    | key :: outerKeys => { x with key := key, outerKeys := outerKeys }
  return ((x.allowKey false).skip 1).emit t

def flowEntry (x : Lexer) : Option Lexer := do
  let x ← x.dropKey
  return ((x.allowKey true).skip 1).emit .flowEntry

def blockEntry (x : Lexer) : Option Lexer := do
  if !x.inFlow && !x.keyAllowed then none
  let x ← (x.roll x.cursor.column x.tokens.length .blockSequenceStart).dropKey
  return ((x.allowKey true).skip 1).emit .blockEntry

def explicitKey (x : Lexer) : Option Lexer := do
  if !x.inFlow && !x.keyAllowed then none
  let x ← (x.roll x.cursor.column x.tokens.length .blockMappingStart).dropKey
  return ((x.allowKey (!x.inFlow)).skip 1).emit .key

/-- The colon behind a key. A key that was only possible so far gets its token, and if it is
the first of its block, so does the block. -/
def value (x : Lexer) : Option Lexer := do
  let x ←
    match x.key with
    | some k =>
      let x := (x.insertAt k.number .key).roll k.place.column k.number .blockMappingStart
      some ({ x with key := none }.allowKey false)
    | none =>
      if !x.inFlow && !x.keyAllowed then none
      else
        let x := x.roll x.cursor.column x.tokens.length .blockMappingStart
        some (x.allowKey (!x.inFlow))
  return (x.skip 1).emit .value

def name (x : Lexer) (token : List Char → Token) : Option Lexer := do
  let x ← x.saveKey
  let (name, rest) ← readName (x.cursor.rest.drop 1)
  return ((x.moveTo (x.cursor.upTo rest)).emit (token name)).allowKey false

def tag (x : Lexer) : Option Lexer := do
  let x ← x.saveKey
  let (t, rest) ← readTag (x.cursor.rest.drop 1)
  if tagEnds x.inFlow rest then
    return ((x.moveTo (x.cursor.upTo rest)).emit t).allowKey false
  else none

def blockScalar (x : Lexer) (literal : Bool) : Option Lexer := do
  let x ← x.dropKey
  let (text, c) ← BlockScalar.read literal x.indent (x.cursor.skip 1)
  let style := if literal then ScalarStyle.literal else .folded
  return ((x.moveTo c).emit (.scalar style text)).allowKey true

def quotedScalar (x : Lexer) (single : Bool) : Option Lexer := do
  let x ← x.saveKey
  let (text, c) ← QuotedScalar.read single (x.cursor.skip 1)
  return ((x.moveTo c).emit (.scalar .quoted text)).allowKey false

def plainScalar (x : Lexer) : Option Lexer := do
  let x ← x.saveKey
  let (text, broken, c) ← PlainScalar.read x.inFlow (x.indent + 1).toNat x.cursor
  return ((x.moveTo c).emit (.scalar .plain text)).allowKey broken

/-- Marks with which no plain scalar starts. -/
def isIndicator (c : Char) : Bool :=
  ['-', '?', ':', ',', '[', ']', '\x7b', '\x7d', '#', '&', '*', '!', '|', '>', '\'', '"', '%',
    '@', '\x60'].contains c

/-- Reads the token at a place that is not white space. -/
def token (x : Lexer) (c : Char) (rest : List Char) : Option Lexer :=
  if x.cursor.column = 0 ∧ c = '%' then x.directive
  else if x.cursor.column = 0 ∧ documentMark? (c :: rest) = some '-' then
    x.documentMark .documentStart
  else if x.cursor.column = 0 ∧ documentMark? (c :: rest) = some '.' then
    x.documentMark .documentEnd
  else if c = '[' then x.flowStart .flowSequenceStart
  else if c = '\x7b' then x.flowStart .flowMappingStart
  else if c = ']' then x.flowEnd .flowSequenceEnd
  else if c = '\x7d' then x.flowEnd .flowMappingEnd
  else if c = ',' then x.flowEntry
  else if c = '-' ∧ atGap rest then x.blockEntry
  else if c = '?' ∧ (x.inFlow ∨ atGap rest) then x.explicitKey
  else if c = ':' ∧ (x.inFlow ∨ atGap rest) then x.value
  else if c = '*' then x.name .alias
  else if c = '&' then x.name .anchor
  else if c = '!' then x.tag
  else if c = '|' ∧ !x.inFlow then x.blockScalar true
  else if c = '>' ∧ !x.inFlow then x.blockScalar false
  else if c = '\'' then x.quotedScalar true
  else if c = '"' then x.quotedScalar false
  else if !isGapChar c ∧ (!isIndicator c ∨ c = '-' ∨ c = '?' ∨ c = ':') then x.plainScalar
  else none

/-- Reads the rest of the stream; the bound is on the number of tokens that are read. -/
def run : Nat → Lexer → Option (List Token)
  | 0, _ => none
  | bound + 1, x => do
    let x ← x.toToken.dropStale
    let x := x.unroll x.cursor.column
    match x.cursor.rest with
    | [] =>
      let x ← (x.unroll (-1)).dropKey
      return (x.emit .streamEnd).tokens.reverse
    | c :: rest => run bound (← x.token c rest)

end Lexer

/-- The tokens of a text, unless it is malformed. -/
def Token.ofText? (text : String) : Option (List Token) :=
  let chars := text.toList
  if chars.all isAllowed then
    (Lexer.start (normalizeBreaks chars)).run (chars.length + 1)
  else none

end ClassFacts.Yaml
