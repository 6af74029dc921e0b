import ClassFacts.Error
import ClassFacts.Model.TypeRef

namespace ClassFacts.TypeRef

/-- The type arguments of a reference; no reference has none. -/
def boundArguments : Option TypeRef → List TypeRef
  | none => []
  | some t => t.arguments

def firstArgument (t : TypeRef) : Except Error TypeRef :=
  match t.arguments with
  | first :: _ => .ok first
  | [] => .error (.index ("'" ++ t.qualified ++ "' has no actual type arguments"))

end ClassFacts.TypeRef
