import ClassFacts.Text.LowerCase

namespace ClassFacts.Names

/-- What follows the last dot. -/
def simpleChars (name : List Char) : List Char :=
  (name.reverse.takeWhile (· ≠ '.')).reverse

def simple (qualified : String) : String :=
  String.ofList (simpleChars qualified.toList)

def lowerFirstChars : List Char → List Char
  | [] => []
  | c :: rest => Text.lowerChar c ++ rest

def lowerFirst (name : String) : String :=
  String.ofList (lowerFirstChars name.toList)

/-- The property behind an accessor `get…`, if there is a name after the `get`. -/
def accessorChars? : List Char → Option (List Char)
  | 'g' :: 'e' :: 't' :: c :: rest => some (lowerFirstChars (c :: rest))
  | _ => none

def accessorProperty? (method : String) : Option String :=
  (accessorChars? method.toList).map String.ofList

end ClassFacts.Names
