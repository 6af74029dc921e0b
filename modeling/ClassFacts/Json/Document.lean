import ClassFacts.Json.Reader
import ClassFacts.Schema

namespace ClassFacts.Json

/-- Skips an escape after its backslash. A unit of its own is not looked at. -/
def skipEscape : List Char → Except Fault (List Char)
  | [] => .error .ended
  | e :: text =>
    if (shortEscape? e).isSome then .ok text
    else if e = 'u' then do
      let (_, text) ← readUnit text
      return text
    else .error .malformed

/-- Skips a string after its opening quotation mark; the bound is on its length. -/
def skipChars : Nat → List Char → Except Fault (List Char)
  | 0, _ => .error .ended
  | _ + 1, [] => .error .ended
  | bound + 1, c :: text =>
    if c = '"' then .ok text
    else if c = '\\' then do skipChars bound (← skipEscape text)
    else if c.toNat < 0x20 then .error .malformed
    else skipChars bound text

def skipString (text : List Char) : Except Fault (List Char) :=
  skipChars (text.length + 1) text

/-- Skips a number. One that is cut off counts as malformed, and its size does not matter. -/
def skipNumber (text : List Char) : Except Fault (List Char) :=
  match readNumeral text with
  | .ok (_, rest) => .ok rest
  | .error _ => .error .malformed

/-- Skips the entries of an object after its opening brace. -/
def skipEntries (skip : List Char → Except Fault (List Char)) :
    Nat → Bool → List Char → Except Fault (List Char)
  | 0, _, _ => .error .malformed
  | bound + 1, first, text => do
    match ← next '\x7d' first text with
    | .close text => return text
    | .item text =>
      let text ← skipString (← readMark '"' text)
      skipEntries skip bound false (← skip (← readMark ':' text))

def skipItems (skip : List Char → Except Fault (List Char)) :
    Nat → Bool → List Char → Except Fault (List Char)
  | 0, _, _ => .error .malformed
  | bound + 1, first, text => do
    match ← next ']' first text with
    | .close text => return text
    | .item text => skipItems skip bound false (← skip text)

/-- Skips a value in which at most `depth` containers nest. -/
def skipWithin : Nat → List Char → Except Fault (List Char)
  | depth, text =>
    match skipSpace text with
    | [] => .error .ended
    | '"' :: text => skipString text
    | '[' :: text =>
      match depth with
      | 0 => .error .malformed
      | depth + 1 => skipItems (skipWithin depth) (text.length + 1) true text
    | '\x7b' :: text =>
      match depth with
      | 0 => .error .malformed
      | depth + 1 => skipEntries (skipWithin depth) (text.length + 1) true text
    | 'n' :: text => readWord ['u', 'l', 'l'] text
    | 't' :: text => readWord ['r', 'u', 'e'] text
    | 'f' :: text => readWord ['a', 'l', 's', 'e'] text
    | c :: text => if c = '-' ∨ isDigit c then skipNumber (c :: text) else .error .malformed

/-- Skips a value of any depth: a text holds no more opening brackets than characters. -/
def skipValue (text : List Char) : Except Fault (List Char) :=
  skipWithin text.length text

/-- What is wrong with a text that starts with a value of another type. The value is read as
far as is needed to name it. -/
def wrongType (expected : Expected) (text : List Char) : Fault :=
  let found (x : Found) : Fault := .mismatch (.wrongType x expected)
  let after (word : List Char) (text : List Char) (x : Found) : Fault :=
    match readWord word text with
    | .ok _ => found x
    | .error fault => fault
  match text with
  | [] => .ended
  | '"' :: text =>
    match readString text with
    | .ok (s, _) => found (.text s)
    | .error fault => fault
  | '[' :: _ => found .sequence
  | '\x7b' :: _ => found .mapping
  | 'n' :: text => after ['u', 'l', 'l'] text .null
  | 't' :: text => after ['r', 'u', 'e'] text (.boolean true)
  | 'f' :: text => after ['a', 'l', 's', 'e'] text (.boolean false)
  | c :: text =>
    if c = '-' ∨ isDigit c then
      match readNumber (c :: text) with
      | .ok (.integer n, _) => found (.integer n)
      | .ok (.float x, _) => found (.float x)
      | .error fault => fault
    else .malformed

/-- Reads a string where `expected` stands. -/
def readText (expected : Expected) (text : List Char) : Except Fault (Front String) :=
  match skipSpace text with
  | '"' :: text => readString text
  | text => .error (wrongType expected text)

def readCount (text : List Char) : Except Fault (Front Nat) :=
  match skipSpace text with
  | c :: text =>
    if c = '-' ∨ isDigit c then
      match readNumber (c :: text) with
      | .ok (.integer (.ofNat n), rest) => .ok (n, rest)
      | .ok (.integer n, _) => .error (.mismatch (.wrongValue n .count))
      | .ok (.float x, _) => .error (.mismatch (.wrongType (.float x) .count))
      | .error fault => .error fault
    else .error (wrongType .count (c :: text))
  | [] => .error .ended

/-- Reads the `null` behind the name of a variant that holds nothing. -/
def readNothing (text : List Char) : Except Fault (List Char) :=
  match skipSpace text with
  | 'n' :: text => readWord ['u', 'l', 'l'] text
  | text => .error (wrongType .nothing text)

def checkVariant (known : List String) (name : String) : Except Fault String :=
  if name ∈ known then .ok name else .error (.mismatch (.unknownVariant name known))

/-- Reads a member's value; an optional one may be `null`. -/
def readMember (read : Shape → List Char → Except Fault (Front Document)) (m : Member)
    (text : List Char) : Except Fault (Front Document) :=
  match m.isOptional, skipSpace text with
  | true, 'n' :: text => return (.absent, ← readWord ['u', 'l', 'l'] text)
  | _, text => read m.shape text

/-- Reads an entry of a record. Unknown keys are skipped, and known ones come once. -/
def readRecordEntry (read : Shape → List Char → Except Fault (Front Document)) (r : Record)
    (written : List (String × Document)) (key : String) (text : List Char) :
    Except Fault (Front (List (String × Document))) :=
  match r.member? key with
  | none => do return (written, ← skipValue (← readMark ':' text))
  | some m =>
    if (written.lookup key).isSome then .error (.mismatch (.duplicate key))
    else do
      let (value, text) ← readMember read m (← readMark ':' text)
      return ((key, value) :: written, text)

/-- Reads the members of a record that is written as an array, after `done` others. -/
def readPositional (read : Shape → List Char → Except Fault (Front Document)) (r : Record) :
    List Member → Nat → List Char → Except Fault (Front (List Document))
  | [], _, text => do return ([], ← readMark ']' text)
  | m :: rest, done, text => do
    match ← next ']' (done == 0) text with
    | .item text =>
      let (value, text) ← readMember read m text
      let (values, text) ← readPositional read r rest (done + 1) text
      return (value :: values, text)
    | .close text =>
      match (m :: rest).mapM Member.fallback? with
      | some values => return (values, text)
      | none => throw (.mismatch (.wrongLength done r.title r.members.length))

/-- Reads a document of the given shape in which at most `depth` more containers nest. The keys of
an object are strings, whatever it stands for, and any other key is malformed. -/
def readShape : Nat → Shape → List Char → Except Fault (Front Document)
  | _, .text, text => do
    let (s, text) ← readText .text text
    return (.text s, text)
  | _, .count, text => do
    let (n, text) ← readCount text
    return (.count n, text)
  | depth, .names, text =>
    match skipSpace text with
    | '[' :: text =>
      match depth with
      | 0 => .error .malformed
      | _ + 1 => do
        let (names, text) ← readItems (readText .text) (text.length + 1) true text
        return (.ofNames (NameSet.ofList names).names, text)
    | text => .error (wrongType .set text)
  | depth, .list item, text =>
    match skipSpace text with
    | '[' :: text =>
      match depth with
      | 0 => .error .malformed
      | depth + 1 => do
        let (items, text) ← readItems (readShape depth item) (text.length + 1) true text
        return (.list items, text)
    | text => .error (wrongType .sequence text)
  | depth, .table item, text =>
    match skipSpace text with
    | '\x7b' :: text =>
      match depth with
      | 0 => .error .malformed
      | depth + 1 => do
        let entry := fun (found : List (String × Document)) key text => do
          let (v, text) ← readShape depth item (← readMark ':' text)
          return (Entries.put key v found, text)
        let (entries, text) ← readEntries entry (text.length + 1) true [] text
        return (.table entries, text)
    | text => .error (wrongType .mapping text)
  | depth, .choice c, text =>
    match skipSpace text with
    | [] => .error .ended
    | '"' :: text => do
      let (name, text) ← readString text
      return (.choice (← checkVariant c.variants name), text)
    | '\x7b' :: text =>
      match depth with
      | 0 => .error .malformed
      | _ + 1 => do
        let (name, text) ← readKey text
        let name ← checkVariant c.variants name
        let text ← readNothing (← readMark ':' text)
        return (.choice name, ← readMark '\x7d' text)
    | _ => .error .malformed
  | depth, .value, text =>
    let names := valueForms.map Prod.fst
    match skipSpace text with
    | [] => .error .ended
    | '"' :: text => do
      let (name, _) ← readString text
      let _ ← checkVariant names name
      throw (.mismatch (.wrongType .bareVariant .payload))
    | '\x7b' :: text =>
      match depth with
      | 0 => .error .malformed
      | depth + 1 => do
        let (name, text) ← readKey text
        match valueForms.lookup name with
        | none => throw (.mismatch (.unknownVariant name names))
        | some payload =>
          let (value, text) ← readShape depth payload (← readMark ':' text)
          return (.form name value, ← readMark '\x7d' text)
    | _ => .error .malformed
  | depth, .record r, text =>
    match skipSpace text with
    | '[' :: text =>
      match depth with
      | 0 => .error .malformed
      | depth + 1 => do
        let (members, text) ← readPositional (readShape depth) r r.members 0 text
        return (.record members, text)
    | '\x7b' :: text =>
      match depth with
      | 0 => .error .malformed
      | depth + 1 => do
        let entry := readRecordEntry (readShape depth) r
        let (written, text) ← readEntries entry (text.length + 1) true [] text
        match r.complete written with
        | .ok members => return (.record members, text)
        | .error key => throw (.mismatch (.missing key))
    | text => .error (wrongType (.record r.title) text)

/-- Reads a whole text as a document of the given shape. -/
def readDocument (shape : Shape) (text : String) : Except Fault Document :=
  whole (readShape maxDepth shape) text

end ClassFacts.Json
