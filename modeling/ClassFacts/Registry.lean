import ClassFacts.Event
import ClassFacts.Model.ClassDecl

namespace ClassFacts

/-- The classes of a model, each qualified name once, in the order in which the names came. -/
structure Registry where
  classes : List ClassDecl
  distinct : (classes.map ClassDecl.qualifiedName).Nodup
  deriving Repr

namespace Registry

/-- Puts a class in the place of the one with its qualified name, or at the end. -/
def place (c : ClassDecl) : List ClassDecl → List ClassDecl
  | [] => [c]
  | d :: rest => if d.qualifiedName = c.qualifiedName then c :: rest else d :: place c rest

theorem names_place (c : ClassDecl) (classes : List ClassDecl) :
    (place c classes).map ClassDecl.qualifiedName =
      if c.qualifiedName ∈ classes.map ClassDecl.qualifiedName
      then classes.map ClassDecl.qualifiedName
      else classes.map ClassDecl.qualifiedName ++ [c.qualifiedName] := by
  induction classes with
  | nil => simp [place]
  | cons d rest ih =>
    by_cases h : d.qualifiedName = c.qualifiedName
    · simp [place, h]
    · have h' : c.qualifiedName ≠ d.qualifiedName := fun e => h e.symm
      simp only [place, h, if_false, List.map_cons, ih, List.mem_cons, h', false_or]
      split <;> rfl

def empty : Registry :=
  ⟨[], List.nodup_nil⟩

def find? (r : Registry) (qualified : String) : Option ClassDecl :=
  r.classes.find? (·.qualifiedName == qualified)

/-- The class that a reference names, whatever its type arguments. -/
def resolve? (r : Registry) (t : TypeRef) : Option ClassDecl :=
  r.find? t.qualified

def add (r : Registry) (c : ClassDecl) : Registry :=
  ⟨place c r.classes, by
    rw [names_place]
    split
    · exact r.distinct
    next h => exact nodup_append_new r.distinct h⟩

/-- Adds a class; one of the same qualified name gives way. -/
def insert (r : Registry) (c : ClassDecl) : Logged Registry :=
  ⟨r.add c, if (r.find? c.qualifiedName).isSome then [.replacingDuplicate] else []⟩

def insertAll (r : Registry) (classes : List ClassDecl) : Logged Registry :=
  classes.foldl (fun log c => log.bind fun r => r.insert c) (.quiet r)

def ofClasses (classes : List ClassDecl) : Registry :=
  (empty.insertAll classes).result

def size (r : Registry) : Nat :=
  r.classes.length

end Registry

end ClassFacts
