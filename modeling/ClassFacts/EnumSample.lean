import ClassFacts.Config
import ClassFacts.Event
import ClassFacts.Json.Reader
import ClassFacts.Model.ClassDecl
import ClassFacts.Text.Blank

namespace ClassFacts

/-- A value that stands for an enum: the name of a constant, or its first argument as written. -/
inductive SampleValue
  | constantName (name : String)
  | argument (source : String)
  deriving DecidableEq, Repr

namespace SampleValue

/-- The name in plain quotation marks, or the argument as written. -/
def display : SampleValue → String
  | .constantName name => "\"" ++ name ++ "\""
  | .argument source => source

def raw : SampleValue → String
  | .constantName name => name
  | .argument source => source

/-- An argument that is a JSON document stands for its value, any other for its text. -/
def toJson : SampleValue → Json.Value
  | .constantName name => .text name
  | .argument source =>
    match Json.Value.parse (String.ofList (Text.trim source.toList)) with
    | .ok v => v
    | .error _ => .text source

end SampleValue

namespace EnumSample

def hasAnnotatedMethod (c : ClassDecl) : Bool :=
  c.methods.any fun m => !m.annotations.isEmpty

/-- The sample that one constant gives. -/
def ofConstant (config : Config) (annotated : Bool) (k : EnumConstant) : Option SampleValue :=
  if config.kindOf k.type = .scalar then none
  else
    match annotated, k.arguments with
    | true, some (first :: _) => some (.argument first)
    | _, _ => some (.constantName k.name)

/-- Goes through the constants from a position on, with the sample found so far. By name only, the
first one that comes ends it; otherwise only the one at position zero can change the sample. -/
def visit (config : Config) (annotated nameOnly : Bool) :
    Nat → Option SampleValue → List EnumConstant → Logged (Option SampleValue)
  | _, found, [] => ⟨found, [.sampleResolved]⟩
  | position, found, k :: rest =>
    if nameOnly then ⟨some (.constantName k.name), []⟩
    else if 0 < position then visit config annotated nameOnly (position + 1) found rest
    else
      visit config annotated nameOnly (position + 1) ((ofConstant config annotated k).or found) rest

/-- The sample of an enum. -/
def resolve (config : Config) (c : ClassDecl) (nameOnly : Bool) : Logged (Option SampleValue) :=
  visit config (hasAnnotatedMethod c) nameOnly 0 none c.enumConstants

end EnumSample

end ClassFacts
