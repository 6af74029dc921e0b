import ClassFacts.Config

namespace ClassFacts

inductive Format
  | json
  | yaml
  deriving DecidableEq, Repr

namespace Format

/-- The parts of a path between its slashes. -/
def parts : List Char → List (List Char)
  | [] => [[]]
  | c :: rest =>
    if c = '/' then [] :: parts rest
    else
      match parts rest with
      | [] => [[c]]
      | part :: others => (c :: part) :: others

/-- The last part of a path that is not empty and not a single dot. -/
def lastPart? (path : List Char) : Option (List Char) :=
  (parts path).reverse.find? fun part => part ≠ [] && part ≠ ['.']

/-- What follows the last dot of a file name, unless nothing stands before that dot. -/
def extension? (name : List Char) : Option (List Char) :=
  if name = ['.', '.'] then none
  else
    let after := (name.reverse.takeWhile (· ≠ '.')).reverse
    if after.length + 1 < name.length then some after else none

/-- A path whose extension is `yaml` or `yml` in any case names a YAML document. -/
def ofPath (path : String) : Format :=
  match (lastPart? path.toList).bind extension? with
  | some extension =>
    let extension := String.ofList extension
    if Config.sameIgnoringCase extension "yaml" || Config.sameIgnoringCase extension "yml"
    then .yaml else .json
  | none => .json

end Format

end ClassFacts
