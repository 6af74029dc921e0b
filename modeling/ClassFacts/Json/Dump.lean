import ClassFacts.Json.Value
import ClassFacts.Schema

namespace ClassFacts

/-- Whether a member with this value is left out of a written record. -/
def Member.omits (m : Member) : Document → Bool
  | .absent => m.isOptional
  | .list [] => m.omitEmpty
  | _ => false

/-- The shape of what an annotation value of the named form holds. -/
def formShape (name : String) : Shape :=
  (valueForms.lookup name).getD .text

namespace Document

open Json (Value)

mutual

/-- The JSON value that says what a document of the given shape says. -/
def toJson : Shape → Document → Value
  | _, .absent => .null
  | _, .text s => .text s
  | _, .count n => .integer n
  | _, .choice name => .text name
  | _, .form name payload => .object [(name, toJson (formShape name) payload)]
  | .list item, .list items => .array (itemsToJson item items)
  | _, .list items => .array (itemsToJson .text items)
  | .table item, .table entries => .object (entriesToJson item entries)
  | _, .table entries => .object (entriesToJson .text entries)
  | .record r, .record members => .object (membersToJson r.members members)
  | _, .record _ => .object []

def itemsToJson (item : Shape) : List Document → List Value
  | [] => []
  | d :: rest => toJson item d :: itemsToJson item rest

def entriesToJson (item : Shape) : List (String × Document) → List (String × Value)
  | [] => []
  | (key, d) :: rest => (key, toJson item d) :: entriesToJson item rest

def membersToJson : List Member → List Document → List (String × Value)
  | m :: members, d :: rest =>
    if m.omits d then membersToJson members rest
    else (m.name, toJson m.shape d) :: membersToJson members rest
  | _, _ => []

end

end Document

end ClassFacts
