import ClassFacts.Yaml.Text
import ClassFacts.Yaml.Token

namespace ClassFacts.Yaml

def octet? (a b : Char) : Option UInt8 := do
  return UInt8.ofNat ((← hexValue? a) * 16 + (← hexValue? b))

/-- How many octets a character takes by its first one. -/
def sequenceLength? (first : UInt8) : Option Nat :=
  if first < 0x80 then some 1
  else if first &&& 0xE0 = 0xC0 then some 2
  else if first &&& 0xF0 = 0xE0 then some 3
  else if first &&& 0xF8 = 0xF0 then some 4
  else none

/-- Reads escaped octets that continue a character. -/
def readContinuation : Nat → List Char → Option (List UInt8 × List Char)
  | 0, text => some ([], text)
  | n + 1, '%' :: a :: b :: rest => do
    let octet ← octet? a b
    if octet &&& 0xC0 ≠ 0x80 then none
    let (more, rest) ← readContinuation n rest
    return (octet :: more, rest)
  | _ + 1, _ => none

/-- Reads the escaped octets of one character. -/
def readEscapedOctets : List Char → Option (List UInt8 × List Char)
  | '%' :: a :: b :: rest => do
    let first ← octet? a b
    let n ← sequenceLength? first
    let (more, rest) ← readContinuation (n - 1) rest
    return (first :: more, rest)
  | _ => none

/-- The characters of a tag; a verbatim one may also hold commas and square brackets. -/
def isTagChar (verbatim : Bool) (c : Char) : Bool :=
  isWordChar c || [';', '/', '?', ':', '@', '&', '=', '+', '$', '.', '%', '!', '~', '*', '\'',
    '(', ')'].contains c || (verbatim && [',', '[', ']'].contains c)

/-- Reads the characters of a tag; the bound is on their number. -/
def readTagChars (verbatim : Bool) : Nat → List Char → Option (List UInt8 × List Char)
  | 0, _ => none
  | _ + 1, [] => some ([], [])
  | bound + 1, c :: rest =>
    if !isTagChar verbatim c then some ([], c :: rest)
    else do
      let (octets, rest) ←
        if c = '%' then readEscapedOctets (c :: rest)
        else some ([UInt8.ofNat c.toNat], rest)
      let (more, rest) ← readTagChars verbatim bound rest
      return (octets ++ more, rest)

def readTagText (verbatim : Bool) (text : List Char) : Option (List UInt8 × List Char) :=
  readTagChars verbatim (text.length + 1) text

/-- What counts of a tag: the octets before a zero. -/
def beforeZero (octets : List UInt8) : List UInt8 :=
  octets.takeWhile (· ≠ 0)

/-- Reads a tag text that is not empty. -/
def readTagText1 (verbatim : Bool) (text : List Char) : Option (List UInt8 × List Char) := do
  let (octets, rest) ← readTagText verbatim text
  if octets.isEmpty then none
  return (beforeZero octets, rest)

/-- Reads the word characters of a handle after its first mark, and a second mark if there is
one. -/
def readHandle (text : List Char) : List Char × Bool × List Char :=
  match text.dropWhile isWordChar with
  | '!' :: rest => (text.takeWhile isWordChar, true, rest)
  | rest => (text.takeWhile isWordChar, false, rest)

def octetsOf (text : List Char) : List UInt8 :=
  text.map fun c => UInt8.ofNat c.toNat

/-- Reads a tag after its first exclamation mark: verbatim, with a handle, or local. A lone mark
has no handle and is its own suffix. -/
def readTag (text : List Char) : Option (Token × List Char) :=
  match text with
  | '<' :: rest => do
    let (suffix, rest) ← readTagText1 true rest
    match rest with
    | '>' :: rest => return (.tag [] suffix, rest)
    | _ => none
  | _ =>
    match readHandle text with
    | (name, true, rest) => do
      let (suffix, rest) ← readTagText1 false rest
      return (.tag ('!' :: name ++ ['!']) suffix, rest)
    | (name, false, rest) => do
      let (more, rest) ← readTagText false rest
      let suffix := octetsOf name ++ beforeZero more
      if suffix.isEmpty then return (.tag [] (octetsOf ['!']), rest)
      return (.tag ['!'] suffix, rest)

/-- Whether a tag may end here. Inside a flow collection a comma may follow. -/
def tagEnds (flow : Bool) (rest : List Char) : Bool :=
  atGap rest || (flow && rest.head? == some ',')

/-- Reads a number of at most nine digits. -/
def readVersionNumber (text : List Char) : Option (Nat × List Char) :=
  let digits := text.takeWhile Char.isDigit
  if digits.isEmpty ∨ 9 < digits.length then none
  else
    some (digits.foldl (fun n d => n * 10 + (d.toNat - '0'.toNat)) 0, text.dropWhile Char.isDigit)

def readVersion (text : List Char) : Option (Token × List Char) := do
  let (major, rest) ← readVersionNumber text
  match rest with
  | '.' :: rest =>
    let (minor, rest) ← readVersionNumber rest
    return (.version major minor, rest)
  | _ => none

/-- Reads a handle and, behind blanks, what it stands for. -/
def readTagHandle (text : List Char) : Option (Token × List Char) :=
  match text with
  | '!' :: rest => do
    let (name, closed, rest) := readHandle rest
    if !closed ∧ !name.isEmpty then none
    let handle := '!' :: name ++ (if closed then ['!'] else [])
    let expansion := rest.dropWhile isSpaceOrTab
    if expansion.length = rest.length then none
    let (octets, rest) ← readTagText1 true expansion
    if atGap rest then return (.tagHandle handle octets, rest) else none
  | _ => none

/-- Reads a directive after its percent sign, up to the end of its line. -/
def readDirective (text : List Char) : Option (Token × List Char) := do
  let name := text.takeWhile isWordChar
  let rest := text.dropWhile isWordChar
  if !atGap rest then none
  let arguments := rest.dropWhile isSpaceOrTab
  let (token, rest) ←
    if name = ['Y', 'A', 'M', 'L'] then readVersion arguments
    else if name = ['T', 'A', 'G'] then readTagHandle arguments
    else none
  return (token, ← skipToBreak rest)

/-- Whether the name of an anchor may end here. -/
def nameEnds : List Char → Bool
  | [] => true
  | c :: _ => isGapChar c || ['?', ':', ',', ']', '\x7d', '%', '@', '\x60'].contains c

/-- Reads the name of an anchor or alias after its mark. -/
def readName (text : List Char) : Option (List Char × List Char) :=
  let name := text.takeWhile isWordChar
  let rest := text.dropWhile isWordChar
  if name.isEmpty || !nameEnds rest then none else some (name, rest)

end ClassFacts.Yaml
