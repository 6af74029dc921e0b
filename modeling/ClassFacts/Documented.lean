import ClassFacts.Error
import ClassFacts.Format
import ClassFacts.Json.Document
import ClassFacts.Json.Dump
import ClassFacts.Model.Documents
import ClassFacts.Yaml.Document

namespace ClassFacts

/-- Reads a document of the given shape in either format. -/
def Format.read : Format → Shape → String → Except Error Document
  | .json, shape, text => (Json.readDocument shape text).mapError .json
  | .yaml, shape, text =>
    match Yaml.readDocument shape text with
    | some d => .ok d
    | none => .error .yaml

/-- Values that documents speak of. -/
class Documented (α : Type) where
  shape : Shape
  ofDocument : Document → α
  toDocument : α → Document

namespace Documented

variable {α : Type} [Documented α]

/-- Reads a whole text as a value. -/
def read (format : Format) (text : String) : Except Error α :=
  (format.read (shape α) text).map ofDocument

def dump (x : α) : Json.Value :=
  (toDocument x).toJson (shape α)

instance : Documented TypeKind :=
  ⟨.choice .typeKind, TypeKind.ofDocument, TypeKind.toDocument⟩

instance : Documented ClassKind :=
  ⟨.choice .classKind, ClassKind.ofDocument, ClassKind.toDocument⟩

instance : Documented FieldOrigin :=
  ⟨.choice .fieldOrigin, FieldOrigin.ofDocument, FieldOrigin.toDocument⟩

instance : Documented TypeRef :=
  ⟨.record .typeRef, TypeRef.ofDocument, TypeRef.toDocument⟩

instance : Documented AnnotationValue :=
  ⟨.value, AnnotationValue.ofDocument, AnnotationValue.toDocument⟩

instance : Documented AnnotationUse :=
  ⟨.record .annotationUse, AnnotationUse.ofDocument, AnnotationUse.toDocument⟩

instance : Documented Field :=
  ⟨.record .field, Field.ofDocument, Field.toDocument⟩

instance : Documented Parameter :=
  ⟨.record .parameter, Parameter.ofDocument, Parameter.toDocument⟩

instance : Documented Method :=
  ⟨.record .method, Method.ofDocument, Method.toDocument⟩

instance : Documented EnumConstant :=
  ⟨.record .constant, EnumConstant.ofDocument, EnumConstant.toDocument⟩

instance : Documented ClassDecl :=
  ⟨.record .classDecl, ClassDecl.ofDocument, ClassDecl.toDocument⟩

instance : Documented Registry :=
  ⟨.record .model, Registry.ofDocument, Registry.toDocument⟩

instance : Documented Config :=
  ⟨.record .config, Config.ofDocument, Config.toDocument⟩

instance : Documented (List α) :=
  ⟨.list (shape α), Document.asList ofDocument, Document.ofList toDocument⟩

end Documented

end ClassFacts
