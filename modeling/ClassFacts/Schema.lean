import ClassFacts.Config.Tables

namespace ClassFacts

/-- A closed set of names. -/
inductive Choice
  | typeKind
  | classKind
  | fieldOrigin
  deriving DecidableEq, Repr

def Choice.variants : Choice → List String
  | .typeKind => ["scalar", "collection", "map", "class", "interface", "enum"]
  | .classKind => ["class", "interface", "enum"]
  | .fieldOrigin => ["declared", "synthesized"]

/-- The records of which documents are made. -/
inductive Record
  | typeRef
  | field
  | parameter
  | method
  | constant
  | annotationUse
  | classDecl
  | model
  | config
  deriving DecidableEq, Repr

/-- The name of a record in messages. -/
def Record.title : Record → String
  | .typeRef => "TypeDescriptor"
  | .field => "FieldDescriptor"
  | .parameter => "ParameterDescriptor"
  | .method => "MethodDescriptor"
  | .constant => "EnumConstant"
  | .annotationUse => "AnnotationDescriptor"
  | .classDecl => "ClassDescriptor"
  | .model => "ModelDump"
  | .config => "IntrospectionConfig"

/-- What may stand at a place of a document. A `value` is the value of an annotation property. -/
inductive Shape
  | text
  | count
  | names
  | list (item : Shape)
  | table (item : Shape)
  | choice (c : Choice)
  | value
  | record (r : Record)
  deriving DecidableEq, Repr

/-- The forms of an annotation value, each a name and what it holds. -/
def valueForms : List (String × Shape) :=
  [("type_ref", .record .typeRef), ("list", .list .value), ("literal", .text)]

/-- What a document says, in the terms of a shape. A record lists its members in the order of
their declaration; a set of names is a list of texts. -/
inductive Document
  | absent
  | text (s : String)
  | count (n : Nat)
  | choice (name : String)
  | form (name : String) (payload : Document)
  | list (items : List Document)
  | table (entries : List (String × Document))
  | record (members : List Document)
  deriving Repr

instance : Inhabited Document := ⟨.absent⟩

def Document.ofNames (names : List String) : Document :=
  .list (names.map .text)

/-- Whether a member has to be written. An optional one may also be written as nothing. -/
inductive Presence
  | required
  | optional
  | assumed (value : Document)
  deriving Repr

/-- A member of a record. Some are left out of a written record when they are empty. -/
structure Member where
  name : String
  shape : Shape
  presence : Presence
  omitEmpty : Bool
  deriving Repr

namespace Member

def required (name : String) (shape : Shape) : Member :=
  ⟨name, shape, .required, false⟩

def optional (name : String) (shape : Shape) : Member :=
  ⟨name, shape, .optional, false⟩

def assumed (name : String) (shape : Shape) (value : Document) : Member :=
  ⟨name, shape, .assumed value, false⟩

/-- A list that is empty unless written. -/
def several (name : String) (item : Record) : Member :=
  assumed name (.list (.record item)) (.list [])

def isOptional (m : Member) : Bool :=
  match m.presence with
  | .optional => true
  | _ => false

/-- What an unwritten member stands for, if it may be left unwritten. -/
def fallback? (m : Member) : Option Document :=
  match m.presence with
  | .required => none
  | .optional => some .absent
  | .assumed value => some value

end Member

open Member in
/-- The members of a record in the order of their declaration. -/
def Record.members : Record → List Member
  | .typeRef =>
    [required "name" .text, assumed "qualified_name" .text (.text ""),
      optional "kind" (.choice .typeKind),
      ⟨"arguments", .list (.record .typeRef), .assumed (.list []), true⟩]
  | .field =>
    [required "name" .text, required "type" (.record .typeRef),
      assumed "origin" (.choice .fieldOrigin) (.choice "declared")]
  | .parameter =>
    [required "name" .text, required "type" (.record .typeRef), several "annotations" .annotationUse]
  | .method =>
    [required "name" .text, required "returns" (.record .typeRef),
      several "annotations" .annotationUse, several "parameters" .parameter]
  | .constant =>
    [required "name" .text, required "type" (.record .typeRef),
      optional "arguments" (.list .text)]
  | .annotationUse =>
    [required "type" (.record .typeRef), assumed "properties" (.table .value) (.table [])]
  | .classDecl =>
    [required "name" .text, required "qualified_name" .text,
      assumed "kind" (.choice .classKind) (.choice "class"), several "fields" .field,
      several "methods" .method, several "annotations" .annotationUse,
      optional "superclass" (.record .typeRef), several "enum_constants" .constant,
      several "type_arguments" .typeRef]
  | .model => [several "classes" .classDecl]
  | .config =>
    [assumed "scalar_types" .names (.ofNames Tables.scalarTypes),
      assumed "collection_types" .names (.ofNames Tables.collectionTypes),
      assumed "map_types" .names (.ofNames Tables.mapTypes),
      assumed "opaque_terminators" .names (.ofNames Tables.opaqueTerminators),
      assumed "validator_annotations" .names (.ofNames Tables.validatorAnnotations),
      assumed "cascading_marker" .text (.text Tables.cascadingMarker),
      assumed "value_property" .text (.text Tables.valueProperty),
      assumed "groups_property" .text (.text Tables.groupsProperty),
      assumed "max_hierarchy_depth" .count (.count Tables.maxHierarchyDepth)]

def Record.member? (r : Record) (name : String) : Option Member :=
  r.members.find? (·.name == name)

/-- The members of a record from the written ones, in the order of their declaration. The
first one that is missing without a substitute is named instead. -/
def Record.complete (r : Record) (written : List (String × Document)) :
    Except String (List Document) :=
  r.members.mapM fun m =>
    match written.lookup m.name with
    | some value => .ok value
    | none =>
      match m.fallback? with
      | some value => .ok value
      | none => .error m.name

end ClassFacts
