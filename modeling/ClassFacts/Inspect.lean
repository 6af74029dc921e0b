import ClassFacts.EnumSample
import ClassFacts.Generics
import ClassFacts.Groups
import ClassFacts.Json.Value

namespace ClassFacts

/-- The classes and tables that questions are put to. -/
structure Session where
  classes : Registry
  config : Config
  deriving Repr

namespace Session

open Json (Value)

/-- Answers a question about the named class. -/
def withClass (s : Session) (name : String)
    (answer : ClassDecl → Logged (Except CommandError Value)) :
    Logged (Except CommandError Value) :=
  match s.classes.find? name with
  | some c => answer c
  | none => ⟨.error (.failed ("Class '" ++ name ++ "' not found")), []⟩

def fieldRow (f : Field) : Value :=
  .object [("name", .text f.name), ("type", .text f.type.canonicalName),
    ("origin", .text f.origin.name)]

/-- All fields of a class with their canonical types. -/
def fields (s : Session) (className : String) : Logged (Except CommandError Value) :=
  s.withClass className fun c =>
    (Hierarchy.collect s.config s.classes c).map fun
      | .ok fields => .ok (.ofList fieldRow fields)
      | .error fault => .error (.core (.tooDeep fault))

def enumSample (s : Session) (className : String) (nameOnly : Bool) :
    Logged (Except CommandError Value) :=
  s.withClass className fun c =>
    if c.isEnum then
      (EnumSample.resolve s.config c nameOnly).map fun sample =>
        .ok (.ofOption SampleValue.toJson sample)
    else ⟨.error (.failed ("'" ++ className ++ "' is not an enum")), []⟩

/-- The canonical names of the type arguments of a declared field. -/
def typeArguments (s : Session) (className fieldName : String) :
    Logged (Except CommandError Value) :=
  s.withClass className fun c =>
    match c.field? fieldName with
    | some f => ⟨.ok (.ofList (fun t => .text t.canonicalName) f.type.arguments), []⟩
    | none =>
      ⟨.error (.failed ("Field '" ++ fieldName ++ "' not found on '" ++ className ++ "'")), []⟩

/-- The groups of each parameter by name. Of two with one name the later counts, at the place
of the first. -/
def parameterGroups (s : Session) : List Parameter → Logged (List (String × Value))
  | parameters =>
    parameters.foldl
      (fun log p => log.bind fun entries =>
        (Groups.ofParameter s.config p).map fun groups =>
          Entries.put p.name (.ofList .text groups) entries)
      (.quiet [])

/-- The groups of one overload, of its parameters of the wanted name if one is wanted. -/
def overloadGroups (s : Session) (wanted : Option String) (m : Method) :
    Logged (List (String × Value)) :=
  s.parameterGroups <|
    match wanted with
    | none => m.parameters
    | some name => m.parameters.filter (·.name == name)

def overloadsGroups (s : Session) (wanted : Option String) :
    List Method → Logged (List (List (String × Value)))
  | [] => ⟨[], []⟩
  | m :: rest =>
    (s.overloadGroups wanted m).bind fun entries =>
      (s.overloadsGroups wanted rest).map fun others =>
        if wanted.isSome && entries.isEmpty then others else entries :: others

/-- The groups of the parameters of each overload of a method. With a wanted parameter, only
the overloads that have it count. -/
def groups (s : Session) (className methodName : String) (wanted : Option String) :
    Logged (Except CommandError Value) :=
  s.withClass className fun c =>
    let overloads := c.methodsNamed methodName
    if overloads.isEmpty then
      ⟨.error (.failed ("Method '" ++ methodName ++ "' not found on '" ++ className ++ "'")), []⟩
    else
      (s.overloadsGroups wanted overloads).map fun rows =>
        match wanted, rows with
        | some name, [] =>
          .error (.failed ("Parameter '" ++ name ++ "' not found on '" ++ methodName ++ "'"))
        | _, _ => .ok (.ofList .object rows)

end Session

end ClassFacts
