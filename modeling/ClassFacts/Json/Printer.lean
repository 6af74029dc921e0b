import ClassFacts.Json.Value

namespace ClassFacts.Json

def hexDigit (n : Nat) : Char :=
  Nat.digitChar n

/-- Only quotation marks, backslashes and control characters are escaped in a string. -/
def escape (c : Char) : List Char :=
  if c = '"' then ['\\', '"']
  else if c = '\\' then ['\\', '\\']
  else if c = '\x08' then ['\\', 'b']
  else if c = '\t' then ['\\', 't']
  else if c = '\n' then ['\\', 'n']
  else if c = '\x0c' then ['\\', 'f']
  else if c = '\r' then ['\\', 'r']
  else if c.toNat < 0x20 then
    ['\\', 'u', '0', '0', hexDigit (c.toNat / 16), hexDigit (c.toNat % 16)]
  else [c]

def stringText (s : String) : List Char :=
  '"' :: s.toList.flatMap escape ++ ['"']

def integerText : Int → List Char
  | .ofNat n => Nat.toDigits 10 n
  | .negSucc n => '-' :: Nat.toDigits 10 (n + 1)

def booleanText (b : Bool) : List Char :=
  if b then ['t', 'r', 'u', 'e'] else ['f', 'a', 'l', 's', 'e']

mutual

/-- The text without white space. -/
def Value.compactText : Value → List Char
  | .null => ['n', 'u', 'l', 'l']
  | .boolean b => booleanText b
  | .integer n => integerText n
  | .float x => x.text
  | .text s => stringText s
  | .array items => '[' :: compactItems items ++ [']']
  | .object entries => '\x7b' :: compactEntries entries ++ ['\x7d']

def compactItems : List Value → List Char
  | [] => []
  | v :: rest => v.compactText ++ compactRest rest

/-- The items after the first, each behind a comma. -/
def compactRest : List Value → List Char
  | [] => []
  | v :: rest => ',' :: v.compactText ++ compactRest rest

def compactEntries : List (String × Value) → List Char
  | [] => []
  | (key, v) :: rest => stringText key ++ ':' :: v.compactText ++ compactEntryRest rest

def compactEntryRest : List (String × Value) → List Char
  | [] => []
  | (key, v) :: rest => ',' :: stringText key ++ ':' :: v.compactText ++ compactEntryRest rest

end

def Value.compact (v : Value) : String :=
  String.ofList v.compactText

/-- A new line, indented by two spaces a level. -/
def newLine (level : Nat) : List Char :=
  '\n' :: List.replicate (2 * level) ' '

mutual

/-- The text with an item to a line, seen from a line at the given level. -/
def Value.prettyText (level : Nat) : Value → List Char
  | .null => ['n', 'u', 'l', 'l']
  | .boolean b => booleanText b
  | .integer n => integerText n
  | .float x => x.text
  | .text s => stringText s
  | .array [] => ['[', ']']
  | .array (v :: rest) =>
    '[' :: newLine (level + 1) ++ v.prettyText (level + 1) ++ prettyRest (level + 1) rest ++
      newLine level ++ [']']
  | .object [] => ['\x7b', '\x7d']
  | .object ((key, v) :: rest) =>
    '\x7b' :: newLine (level + 1) ++ stringText key ++ ':' :: ' ' :: v.prettyText (level + 1) ++
      prettyEntryRest (level + 1) rest ++ newLine level ++ ['\x7d']

def prettyRest (level : Nat) : List Value → List Char
  | [] => []
  | v :: rest => ',' :: newLine level ++ v.prettyText level ++ prettyRest level rest

def prettyEntryRest (level : Nat) : List (String × Value) → List Char
  | [] => []
  | (key, v) :: rest =>
    ',' :: newLine level ++ stringText key ++ ':' :: ' ' :: v.prettyText level ++
      prettyEntryRest level rest

end

def Value.pretty (v : Value) : String :=
  String.ofList (v.prettyText 0)

end ClassFacts.Json
