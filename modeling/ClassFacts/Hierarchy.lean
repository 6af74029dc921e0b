import ClassFacts.Config
import ClassFacts.Registry

namespace ClassFacts

/-- The class at which a hierarchy passes the depth ceiling, and its depth there. -/
structure TooDeep where
  className : String
  depth : Nat
  deriving DecidableEq, Repr

namespace Hierarchy

/-- The properties behind the accessors of an interface. Collections and maps have none. -/
def synthesizedFields (config : Config) (c : ClassDecl) : List Field :=
  if !c.isInterface || config.isCollection c.qualifiedName || config.isMap c.qualifiedName then []
  else
    c.methods.filterMap fun m =>
      (Names.accessorProperty? m.name).map fun name => .synthesized name m.returns

/-- What there is to say when a superclass is not among the classes. -/
def unresolved (config : Config) (superclass : TypeRef) : List Event :=
  if config.isOpaqueTerminator superclass.name then []
  else if superclass.qualifiedName = "" then [.unnamedSuperclass]
  else [.unknownSuperclass]

def superclass? (config : Config) (classes : Registry) (c : ClassDecl) :
    Logged (Option ClassDecl) :=
  match c.superclass with
  | none => ⟨none, []⟩
  | some superclass =>
    match classes.resolve? superclass with
    | some d => ⟨some d, []⟩
    | none => ⟨none, unresolved config superclass⟩

/-- A class and its ancestors, up to an opaque terminator or a superclass that is missing.
`levels` counts the depths from `depth` on that are still below the ceiling. -/
def ancestors (config : Config) (classes : Registry) :
    (levels depth : Nat) → Option ClassDecl → Logged (Except TooDeep (List ClassDecl))
  | _, _, none => ⟨.ok [], []⟩
  | levels, depth, some c =>
    if config.isOpaqueTerminator c.name then ⟨.ok [], [.opaqueTerminator]⟩
    else
      match levels with
      | 0 => ⟨.error ⟨c.qualifiedName, depth⟩, [.ceilingExceeded]⟩
      | levels + 1 =>
        (superclass? config classes c).bind fun next =>
          (ancestors config classes levels (depth + 1) next).map fun chain =>
            chain.map (c :: ·)

/-- Derived fields from the class up, then declared fields from the top down. -/
def flatten (config : Config) (chain : List ClassDecl) : List Field :=
  chain.flatMap (synthesizedFields config) ++ chain.reverse.flatMap ClassDecl.fields

/-- The fields of a class that stands at the given depth, ancestors included. -/
def collectFrom (config : Config) (classes : Registry) (c : Option ClassDecl) (depth : Nat) :
    Logged (Except TooDeep (List Field)) :=
  (ancestors config classes (config.maxHierarchyDepth + 1 - depth) depth c).bind fun
    | .error fault => ⟨.error fault, []⟩
    | .ok chain =>
      ⟨.ok (flatten config chain), if chain.isEmpty then [] else [.collectedFields]⟩

def collect (config : Config) (classes : Registry) (c : ClassDecl) :
    Logged (Except TooDeep (List Field)) :=
  collectFrom config classes (some c) 0

end Hierarchy

end ClassFacts
