import ClassFacts.Config
import ClassFacts.Model.ClassDecl
import ClassFacts.Registry
import ClassFacts.Schema

namespace ClassFacts

namespace Document

def ofOption {α : Type} (f : α → Document) : Option α → Document
  | none => .absent
  | some x => f x

def ofList {α : Type} (f : α → Document) (items : List α) : Document :=
  .list (items.map f)

def asText : Document → String
  | .text s => s
  | _ => ""

def asCount : Document → Nat
  | .count n => n
  | _ => 0

def asChoice : Document → String
  | .choice name => name
  | _ => ""

def asList {α : Type} (f : Document → α) : Document → List α
  | .list items => items.map f
  | _ => []

def asOption {α : Type} (f : Document → α) : Document → Option α
  | .absent => none
  | d => some (f d)

end Document

open Document

def TypeKind.toDocument (k : TypeKind) : Document :=
  .choice k.name

def TypeKind.ofName : String → TypeKind
  | "scalar" => .scalar
  | "collection" => .collection
  | "map" => .map
  | "interface" => .interface
  | "enum" => .enum
  | _ => .classType

def TypeKind.ofDocument (d : Document) : TypeKind :=
  .ofName d.asChoice

def ClassKind.toDocument (k : ClassKind) : Document :=
  .choice k.name

def ClassKind.ofName : String → ClassKind
  | "interface" => .interface
  | "enum" => .enum
  | _ => .classType

def ClassKind.ofDocument (d : Document) : ClassKind :=
  .ofName d.asChoice

def FieldOrigin.toDocument (o : FieldOrigin) : Document :=
  .choice o.name

def FieldOrigin.ofName : String → FieldOrigin
  | "synthesized" => .synthesized
  | _ => .declared

def FieldOrigin.ofDocument (d : Document) : FieldOrigin :=
  .ofName d.asChoice

namespace TypeRef

mutual

def toDocument : TypeRef → Document
  | ⟨name, qualifiedName, kind, arguments⟩ =>
    .record [.text name, .text qualifiedName, .ofOption TypeKind.toDocument kind,
      .list (listToDocuments arguments)]

def listToDocuments : List TypeRef → List Document
  | [] => []
  | t :: rest => toDocument t :: listToDocuments rest

end

mutual

/-- The reference that a document of its record says. -/
def ofDocument : Document → TypeRef
  | .record [name, qualifiedName, kind, .list arguments] =>
    ⟨name.asText, qualifiedName.asText, kind.asOption TypeKind.ofDocument,
      listOfDocuments arguments⟩
  | _ => ⟨"", "", none, []⟩

def listOfDocuments : List Document → List TypeRef
  | [] => []
  | d :: rest => ofDocument d :: listOfDocuments rest

end

end TypeRef

namespace AnnotationValue

mutual

def toDocument : AnnotationValue → Document
  | .typeRef type => .form "type_ref" type.toDocument
  | .list items => .form "list" (.list (listToDocuments items))
  | .literal source => .form "literal" (.text source)

def listToDocuments : List AnnotationValue → List Document
  | [] => []
  | v :: rest => toDocument v :: listToDocuments rest

end

mutual

def ofDocument : Document → AnnotationValue
  | .form "type_ref" type => .typeRef (TypeRef.ofDocument type)
  | .form "list" (.list items) => .list (listOfDocuments items)
  | .form _ source => .literal source.asText
  | _ => .literal ""

def listOfDocuments : List Document → List AnnotationValue
  | [] => []
  | d :: rest => ofDocument d :: listOfDocuments rest

end

end AnnotationValue

namespace AnnotationUse

def toDocument (a : AnnotationUse) : Document :=
  .record [a.type.toDocument,
    .table (a.properties.entries.map fun (name, value) => (name, value.toDocument))]

def ofDocument : Document → AnnotationUse
  | .record [type, .table properties] =>
    ⟨.ofDocument type,
      .ofEntries (properties.map fun (name, value) => (name, .ofDocument value))⟩
  | d => .ofType (.ofDocument d)

end AnnotationUse

namespace Field

def toDocument (f : Field) : Document :=
  .record [.text f.name, f.type.toDocument, f.origin.toDocument]

def ofDocument : Document → Field
  | .record [name, type, origin] => ⟨name.asText, .ofDocument type, .ofDocument origin⟩
  | d => ⟨"", .ofDocument d, .declared⟩

end Field

namespace Parameter

def toDocument (p : Parameter) : Document :=
  .record [.text p.name, p.type.toDocument, .ofList AnnotationUse.toDocument p.annotations]

def ofDocument : Document → Parameter
  | .record [name, type, annotations] =>
    ⟨name.asText, .ofDocument type, annotations.asList AnnotationUse.ofDocument⟩
  | d => ⟨"", .ofDocument d, []⟩

end Parameter

namespace Method

def toDocument (m : Method) : Document :=
  .record [.text m.name, m.returns.toDocument, .ofList AnnotationUse.toDocument m.annotations,
    .ofList Parameter.toDocument m.parameters]

def ofDocument : Document → Method
  | .record [name, returns, annotations, parameters] =>
    ⟨name.asText, .ofDocument returns, annotations.asList AnnotationUse.ofDocument,
      parameters.asList Parameter.ofDocument⟩
  | d => ⟨"", .ofDocument d, [], []⟩

end Method

namespace EnumConstant

def toDocument (c : EnumConstant) : Document :=
  .record [.text c.name, c.type.toDocument, .ofOption Document.ofNames c.arguments]

def ofDocument : Document → EnumConstant
  | .record [name, type, arguments] =>
    ⟨name.asText, .ofDocument type, arguments.asOption (Document.asList Document.asText)⟩
  | d => ⟨"", .ofDocument d, none⟩

end EnumConstant

namespace ClassDecl

def toDocument (c : ClassDecl) : Document :=
  .record [.text c.name, .text c.qualifiedName, c.kind.toDocument,
    .ofList Field.toDocument c.fields, .ofList Method.toDocument c.methods,
    .ofList AnnotationUse.toDocument c.annotations, .ofOption TypeRef.toDocument c.superclass,
    .ofList EnumConstant.toDocument c.enumConstants,
    .ofList TypeRef.toDocument c.typeArguments]

def ofDocument : Document → ClassDecl
  | .record [name, qualifiedName, kind, fields, methods, annotations, superclass, enumConstants,
      typeArguments] =>
    { name := name.asText
      qualifiedName := qualifiedName.asText
      kind := .ofDocument kind
      fields := fields.asList Field.ofDocument
      methods := methods.asList Method.ofDocument
      annotations := annotations.asList AnnotationUse.ofDocument
      superclass := superclass.asOption TypeRef.ofDocument
      enumConstants := enumConstants.asList EnumConstant.ofDocument
      typeArguments := typeArguments.asList TypeRef.ofDocument }
  | _ => .ofQualified "" .classType

end ClassDecl

namespace Registry

def toDocument (r : Registry) : Document :=
  .record [.ofList ClassDecl.toDocument r.classes]

/-- The classes of a model are added one after the other. -/
def ofDocument : Document → Registry
  | .record [classes] => .ofClasses (classes.asList ClassDecl.ofDocument)
  | _ => .empty

end Registry

def NameSet.ofDocument (d : Document) : NameSet :=
  .ofList (d.asList Document.asText)

namespace Config

def toDocument (c : Config) : Document :=
  .record [.ofNames c.scalarTypes.names, .ofNames c.collectionTypes.names, .ofNames c.mapTypes.names,
    .ofNames c.opaqueTerminators.names, .ofNames c.validatorAnnotations.names, .text c.cascadingMarker,
    .text c.valueProperty, .text c.groupsProperty, .count c.maxHierarchyDepth]

def ofDocument : Document → Config
  | .record [scalarTypes, collectionTypes, mapTypes, opaqueTerminators, validatorAnnotations,
      cascadingMarker, valueProperty, groupsProperty, maxHierarchyDepth] =>
    { scalarTypes := .ofDocument scalarTypes
      collectionTypes := .ofDocument collectionTypes
      mapTypes := .ofDocument mapTypes
      opaqueTerminators := .ofDocument opaqueTerminators
      validatorAnnotations := .ofDocument validatorAnnotations
      cascadingMarker := cascadingMarker.asText
      valueProperty := valueProperty.asText
      groupsProperty := groupsProperty.asText
      maxHierarchyDepth := maxHierarchyDepth.asCount }
  | _ => .standard

end Config

end ClassFacts
