import ClassFacts.Config
import ClassFacts.Event
import ClassFacts.Model.ClassDecl

namespace ClassFacts.Groups

/-- The property of an annotation that lists validation groups. The cascading marker goes
before the validators. -/
def property? (config : Config) (a : AnnotationUse) : Option String :=
  if config.isCascadingMarker a.simpleName then some config.valueProperty
  else if config.isValidator a.simpleName then some config.groupsProperty
  else none

/-- The canonical names of the groups of an annotation. -/
def ofUse (config : Config) (a : AnnotationUse) : Logged (List String) :=
  match (property? config a).bind a.property? with
  | none => ⟨[], []⟩
  | some value =>
    match value.typeRefs? with
    | some types => ⟨types.map TypeRef.canonicalName, []⟩
    | none => ⟨[], [.notAClassList]⟩

/-- The groups of all annotations, in order and with repetitions. -/
def ofAnnotations (config : Config) : List AnnotationUse → Logged (List String)
  | [] => ⟨[], []⟩
  | a :: rest =>
    (ofUse config a).bind fun groups =>
      (ofAnnotations config rest).map (groups ++ ·)

def ofParameter (config : Config) (p : Parameter) : Logged (List String) :=
  ofAnnotations config p.annotations

end ClassFacts.Groups
