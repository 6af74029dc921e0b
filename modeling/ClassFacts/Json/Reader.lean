import ClassFacts.Json.Lexeme
import ClassFacts.Json.Value

namespace ClassFacts.Json

/-- How many containers may stand one inside the other. -/
def maxDepth : Nat := 127

/-- Reads a value in which at most `depth` more containers nest. Of entries with one key the
last counts, at the place of the first. -/
def readValue : Nat → List Char → Except Fault (Front Value)
  | depth, text =>
    match skipSpace text with
    | [] => .error .ended
    | '"' :: text => do
      let (s, text) ← readString text
      return (.text s, text)
    | '[' :: text =>
      match depth with
      | 0 => .error .malformed
      | depth + 1 => do
        let (items, text) ← readItems (readValue depth) (text.length + 1) true text
        return (.array items, text)
    | '\x7b' :: text =>
      match depth with
      | 0 => .error .malformed
      | depth + 1 => do
        let entry := fun (found : List (String × Value)) key text => do
          let (v, text) ← readValue depth (← readMark ':' text)
          return (Entries.put key v found, text)
        let (entries, text) ← readEntries entry (text.length + 1) true [] text
        return (.object entries, text)
    | 'n' :: text => return (.null, ← readWord ['u', 'l', 'l'] text)
    | 't' :: text => return (.boolean true, ← readWord ['r', 'u', 'e'] text)
    | 'f' :: text => return (.boolean false, ← readWord ['a', 'l', 's', 'e'] text)
    | c :: text =>
      if c = '-' ∨ isDigit c then do
        let (n, text) ← readNumber (c :: text)
        match n with
        | .integer n => return (.integer n, text)
        | .float x => return (.float x, text)
      else .error .malformed

/-- Runs a reader over a whole document: only white space may follow what it reads. -/
def whole {α : Type} (read : List Char → Except Fault (Front α)) (document : String) : Except Fault α := do
  let (x, rest) ← read document.toList
  if (skipSpace rest).isEmpty then return x else throw .malformed

def Value.parse (document : String) : Except Fault Value :=
  whole (readValue maxDepth) document

end ClassFacts.Json
