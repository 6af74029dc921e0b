namespace ClassFacts

inductive Level
  | trace
  | debug
  | warn
  deriving DecidableEq, Repr

def Level.name : Level → String
  | .trace => "trace"
  | .debug => "debug"
  | .warn => "warn"

/-- What a run has to say for itself. -/
inductive Event
  | replacingDuplicate
  | opaqueTerminator
  | ceilingExceeded
  | unnamedSuperclass
  | unknownSuperclass
  | collectedFields
  | sampleResolved
  | notAClassList
  deriving DecidableEq, Repr

namespace Event

def level : Event → Level
  | .replacingDuplicate => .debug
  | .opaqueTerminator => .trace
  | .ceilingExceeded => .warn
  | .unnamedSuperclass => .warn
  | .unknownSuperclass => .debug
  | .collectedFields => .trace
  | .sampleResolved => .trace
  | .notAClassList => .debug

def message : Event → String
  | .replacingDuplicate => "registry: replacing duplicate class"
  | .opaqueTerminator => "hierarchy: opaque terminator"
  | .ceilingExceeded => "hierarchy: depth ceiling exceeded"
  | .unnamedSuperclass =>
    "hierarchy: superclass has no qualified name, its fields are skipped"
  | .unknownSuperclass => "hierarchy: superclass not in model"
  | .collectedFields => "hierarchy: collected fields"
  | .sampleResolved => "enum_sample: resolved"
  | .notAClassList => "validation: property is not a class list, ignored"

end Event

/-- A result with the events on the way to it, in order. -/
structure Logged (α : Type) where
  result : α
  events : List Event
  deriving Repr

namespace Logged

variable {α β : Type}

def quiet (x : α) : Logged α :=
  ⟨x, []⟩

def map (f : α → β) (x : Logged α) : Logged β :=
  ⟨f x.result, x.events⟩

def bind (x : Logged α) (f : α → Logged β) : Logged β :=
  ⟨(f x.result).result, x.events ++ (f x.result).events⟩

/-- The level and the text of every event. -/
def lines (x : Logged α) : List (Level × String) :=
  x.events.map fun e => (e.level, e.message)

end Logged

end ClassFacts
