import ClassFacts.Keyed
import ClassFacts.Model.TypeRef

namespace ClassFacts

/-- The value of an annotation property: a class literal, an array, or any other expression as
its source text. -/
inductive AnnotationValue
  | typeRef (type : TypeRef)
  | list (items : List AnnotationValue)
  | literal (source : String)
  deriving Repr

structure AnnotationUse where
  type : TypeRef
  properties : Keyed AnnotationValue
  deriving Repr

def AnnotationValue.classLiteral? : AnnotationValue → Option TypeRef
  | .typeRef type => some type
  | _ => none

/-- The class literals of a value that holds nothing else; a bare one counts as a list. -/
def AnnotationValue.typeRefs? : AnnotationValue → Option (List TypeRef)
  | .typeRef type => some [type]
  | .list items => items.mapM classLiteral?
  | .literal _ => none

namespace AnnotationUse

def ofType (type : TypeRef) : AnnotationUse :=
  ⟨type, .empty⟩

def withProperty (a : AnnotationUse) (name : String) (value : AnnotationValue) : AnnotationUse :=
  { a with properties := a.properties.put name value }

def simpleName (a : AnnotationUse) : String :=
  a.type.name

def property? (a : AnnotationUse) (name : String) : Option AnnotationValue :=
  a.properties.get? name

def typeRefs? (a : AnnotationUse) (name : String) : Option (List TypeRef) :=
  (a.property? name).bind AnnotationValue.typeRefs?

end AnnotationUse

end ClassFacts
