import ClassFacts.Error
import ClassFacts.Format

namespace ClassFacts

/-- Files by the parts of their paths. Every path leads through directories only; a directory
without files is an entry of its own. -/
structure FileTree where
  files : List (List String × ByteArray)
  directories : List (List String)

namespace FileTree

def partsOf (path : String) : List String :=
  (Format.parts path.toList).map String.ofList

def empty : FileTree :=
  ⟨[], []⟩

def isPlain (part : String) : Bool :=
  part ≠ "" && part ≠ "."

def addFile (t : FileTree) (path : String) (content : ByteArray) : FileTree :=
  { t with files := ((partsOf path).filter isPlain, content) :: t.files }

def addDirectory (t : FileTree) (path : String) : FileTree :=
  { t with directories := (partsOf path).filter isPlain :: t.directories }

def isDirectory (t : FileTree) (place : List String) : Bool :=
  place.isEmpty || t.directories.any place.isPrefixOf ||
    t.files.any fun (file, _) => place.isPrefixOf file && place ≠ file

/-- How many octets a part of a path may take up. -/
def maxPartSize : Nat := 255

/-- How many octets a path may take up. -/
def maxPathSize : Nat := 4095

/-- Where a path leads: to a place in the tree, or out of it. -/
inductive Spot
  | inside (place : List String)
  | outside
  deriving DecidableEq, Repr

/-- The place above. -/
def Spot.above : Spot → Spot
  | .inside [] => .outside
  | .inside place => .inside place.dropLast
  | .outside => .outside

/-- Follows the parts of a path from a spot on. Only a directory has parts below it, even if the
part is empty or a dot. Outside of the tree nothing is known by name. -/
def resolve (t : FileTree) : Spot → List String → Except FileFault Spot
  | spot, [] => .ok spot
  | spot, part :: rest =>
    match spot with
    | .outside =>
      if !isPlain part || part = ".." then t.resolve .outside rest
      else .error (if maxPartSize < part.utf8ByteSize then .nameTooLong else .notFound)
    | .inside place =>
      if !t.isDirectory place then
        .error (if (t.files.lookup place).isSome then .notDirectory else .notFound)
      else if !isPlain part then t.resolve spot rest
      else if part = ".." then t.resolve spot.above rest
      else if maxPartSize < part.utf8ByteSize then .error .nameTooLong
      else t.resolve (.inside (place ++ [part])) rest

/-- Where a path starts: an absolute one outside of the tree. -/
def origin (path : String) : Spot :=
  if path.startsWith "/" then .outside else .inside []

/-- The text of the file at a path. -/
def readText (t : FileTree) (path : String) : Except FileFault String := do
  if path.contains '\x00' then throw .zeroInName
  if maxPathSize < path.utf8ByteSize then throw .nameTooLong
  match ← t.resolve (origin path) (partsOf path) with
  | .outside => throw .isDirectory
  | .inside place =>
    match t.files.lookup place with
    | some content =>
      match String.fromUTF8? content with
      | some text => return text
      | none => throw .notText
    | none => throw (if t.isDirectory place then .isDirectory else .notFound)

end FileTree

end ClassFacts
