import ClassFacts.Names

namespace ClassFacts

inductive TypeKind
  | scalar
  | collection
  | map
  | classType
  | interface
  | enum
  deriving DecidableEq, Repr

def TypeKind.name : TypeKind → String
  | .scalar => "scalar"
  | .collection => "collection"
  | .map => "map"
  | .classType => "class"
  | .interface => "interface"
  | .enum => "enum"

/-- A reference to a type with the type arguments that it binds. Its kind is there if it is
known without a table. -/
structure TypeRef where
  name : String
  qualifiedName : String
  kind : Option TypeKind
  arguments : List TypeRef
  deriving Repr

namespace TypeRef

/-- A reference without arguments by qualified name. -/
def ofQualified (qualified : String) : TypeRef :=
  ⟨Names.simple qualified, qualified, none, []⟩

def withKind (t : TypeRef) (kind : TypeKind) : TypeRef :=
  { t with kind := some kind }

def withArguments (t : TypeRef) (arguments : List TypeRef) : TypeRef :=
  { t with arguments := arguments }

/-- The qualified name, or the simple one where that is blank. -/
def qualified (t : TypeRef) : String :=
  if t.qualifiedName = "" then t.name else t.qualifiedName

def isParameterized (t : TypeRef) : Bool :=
  !t.arguments.isEmpty

mutual

/-- The qualified name with the canonical names of the arguments in angle brackets. -/
def canonicalName : TypeRef → String
  | ⟨name, qualifiedName, _, arguments⟩ =>
    let qualified := if qualifiedName = "" then name else qualifiedName
    match arguments with
    | [] => qualified
    | first :: rest => qualified ++ "<" ++ canonicalName first ++ canonicalRest rest ++ ">"

/-- The canonical names of the arguments after the first, each behind a comma and a space. -/
def canonicalRest : List TypeRef → String
  | [] => ""
  | t :: rest => ", " ++ canonicalName t ++ canonicalRest rest

end

end TypeRef

end ClassFacts
