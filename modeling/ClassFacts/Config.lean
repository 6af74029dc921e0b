import ClassFacts.Config.Tables
import ClassFacts.Keyed
import ClassFacts.Model.TypeRef
import ClassFacts.Text.Blank

namespace ClassFacts

/-- The tables behind every classification. -/
structure Config where
  scalarTypes : NameSet
  collectionTypes : NameSet
  mapTypes : NameSet
  opaqueTerminators : NameSet
  validatorAnnotations : NameSet
  cascadingMarker : String
  valueProperty : String
  groupsProperty : String
  maxHierarchyDepth : Nat
  deriving DecidableEq, Repr

namespace Config

def standard : Config where
  scalarTypes := .ofList Tables.scalarTypes
  collectionTypes := .ofList Tables.collectionTypes
  mapTypes := .ofList Tables.mapTypes
  opaqueTerminators := .ofList Tables.opaqueTerminators
  validatorAnnotations := .ofList Tables.validatorAnnotations
  cascadingMarker := Tables.cascadingMarker
  valueProperty := Tables.valueProperty
  groupsProperty := Tables.groupsProperty
  maxHierarchyDepth := Tables.maxHierarchyDepth

/-- Equality without regard to the case of ASCII letters. -/
def sameIgnoringCase (a b : String) : Bool :=
  a.toList.map Char.toLower == b.toList.map Char.toLower

/-- A name without its type arguments: what stands before the first angle bracket, without
white space at its end. -/
def eraseGenericsChars (name : List Char) : List Char :=
  if '<' ∈ name then Text.trimEnd (name.takeWhile (· ≠ '<')) else name

def eraseGenerics (name : String) : String :=
  String.ofList (eraseGenericsChars name.toList)

def isScalar (config : Config) (name : String) : Bool :=
  config.scalarTypes.names.any (sameIgnoringCase · name)

def isCollection (config : Config) (qualified : String) : Bool :=
  config.collectionTypes.contains (eraseGenerics qualified)

def isMap (config : Config) (qualified : String) : Bool :=
  config.mapTypes.contains (eraseGenerics qualified)

def isOpaqueTerminator (config : Config) (simple : String) : Bool :=
  config.opaqueTerminators.contains simple

def isCascadingMarker (config : Config) (simple : String) : Bool :=
  sameIgnoringCase simple config.cascadingMarker

def isValidator (config : Config) (simple : String) : Bool :=
  config.validatorAnnotations.contains simple

/-- The kind of a type: its own where it has one, otherwise by the tables. -/
def kindOf (config : Config) (t : TypeRef) : TypeKind :=
  match t.kind with
  | some kind => kind
  | none =>
    if config.isScalar t.name || config.isScalar t.qualified then .scalar
    else if config.isMap t.qualified then .map
    else if config.isCollection t.qualified then .collection
    else .classType

end Config

end ClassFacts
