import ClassFacts.Model.Annotations

namespace ClassFacts

inductive ClassKind
  | classType
  | interface
  | enum
  deriving DecidableEq, Repr

def ClassKind.name : ClassKind → String
  | .classType => "class"
  | .interface => "interface"
  | .enum => "enum"

def ClassKind.typeKind : ClassKind → TypeKind
  | .classType => .classType
  | .interface => .interface
  | .enum => .enum

/-- Whether a field stands in the source or is derived from an accessor. -/
inductive FieldOrigin
  | declared
  | synthesized
  deriving DecidableEq, Repr

def FieldOrigin.name : FieldOrigin → String
  | .declared => "declared"
  | .synthesized => "synthesized"

structure Field where
  name : String
  type : TypeRef
  origin : FieldOrigin
  deriving Repr

def Field.declared (name : String) (type : TypeRef) : Field :=
  ⟨name, type, .declared⟩

def Field.synthesized (name : String) (type : TypeRef) : Field :=
  ⟨name, type, .synthesized⟩

structure Parameter where
  name : String
  type : TypeRef
  annotations : List AnnotationUse
  deriving Repr

structure Method where
  name : String
  returns : TypeRef
  annotations : List AnnotationUse
  parameters : List Parameter
  deriving Repr

def Method.plain (name : String) (returns : TypeRef) : Method :=
  ⟨name, returns, [], []⟩

def Method.parameter? (m : Method) (name : String) : Option Parameter :=
  m.parameters.find? (·.name == name)

/-- A constant of an enum. An argument list that is empty differs from none. -/
structure EnumConstant where
  name : String
  type : TypeRef
  arguments : Option (List String)
  deriving Repr

/-- The shape of a declared class, interface or enum. -/
structure ClassDecl where
  name : String
  qualifiedName : String
  kind : ClassKind
  fields : List Field
  methods : List Method
  annotations : List AnnotationUse
  superclass : Option TypeRef
  enumConstants : List EnumConstant
  typeArguments : List TypeRef
  deriving Repr

namespace ClassDecl

/-- An empty class. -/
def ofQualified (qualified : String) (kind : ClassKind) : ClassDecl :=
  ⟨Names.simple qualified, qualified, kind, [], [], [], none, [], []⟩

def isInterface (c : ClassDecl) : Bool :=
  c.kind == .interface

def isEnum (c : ClassDecl) : Bool :=
  c.kind == .enum

def field? (c : ClassDecl) (name : String) : Option Field :=
  c.fields.find? (·.name == name)

def method? (c : ClassDecl) (name : String) : Option Method :=
  c.methods.find? (·.name == name)

def methodsNamed (c : ClassDecl) (name : String) : List Method :=
  c.methods.filter (·.name == name)

/-- A reference to the class itself. -/
def asType (c : ClassDecl) : TypeRef :=
  ⟨c.name, c.qualifiedName, some c.kind.typeKind, c.typeArguments⟩

end ClassDecl

end ClassFacts
