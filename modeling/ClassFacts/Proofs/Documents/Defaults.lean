import ClassFacts.Proofs.Documents.Keys

namespace ClassFacts

open Documented (shape ofDocument toDocument)
open FreeEntry (written leavesOut)

/-- Types that are written as records, with what a value is when members are left unsaid. -/
class Defaulted (α : Type) [Documented α] where
  record : Record
  withDefaults : (String → Bool) → α → α

namespace Defaulted

instance : Defaulted TypeRef where
  record := .typeRef
  withDefaults omitted t :=
    ⟨t.name, if omitted "qualified_name" then "" else t.qualifiedName,
      if omitted "kind" then none else t.kind, if omitted "arguments" then [] else t.arguments⟩

instance : Defaulted Field where
  record := .field
  withDefaults omitted f := ⟨f.name, f.type, if omitted "origin" then .declared else f.origin⟩

instance : Defaulted Parameter where
  record := .parameter
  withDefaults omitted p := ⟨p.name, p.type, if omitted "annotations" then [] else p.annotations⟩

instance : Defaulted Method where
  record := .method
  withDefaults omitted m :=
    ⟨m.name, m.returns, if omitted "annotations" then [] else m.annotations,
      if omitted "parameters" then [] else m.parameters⟩

instance : Defaulted EnumConstant where
  record := .constant
  withDefaults omitted c := ⟨c.name, c.type, if omitted "arguments" then none else c.arguments⟩

instance : Defaulted AnnotationUse where
  record := .annotationUse
  withDefaults omitted a := ⟨a.type, if omitted "properties" then .empty else a.properties⟩

instance : Defaulted ClassDecl where
  record := .classDecl
  withDefaults omitted c :=
    { name := c.name
      qualifiedName := c.qualifiedName
      kind := if omitted "kind" then .classType else c.kind
      fields := if omitted "fields" then [] else c.fields
      methods := if omitted "methods" then [] else c.methods
      annotations := if omitted "annotations" then [] else c.annotations
      superclass := if omitted "superclass" then none else c.superclass
      enumConstants := if omitted "enum_constants" then [] else c.enumConstants
      typeArguments := if omitted "type_arguments" then [] else c.typeArguments }

instance : Defaulted Registry where
  record := .model
  withDefaults omitted r := if omitted "classes" then .empty else r

instance : Defaulted Config where
  record := .config
  withDefaults omitted c :=
    { scalarTypes := if omitted "scalar_types" then Config.standard.scalarTypes else c.scalarTypes
      collectionTypes :=
        if omitted "collection_types" then Config.standard.collectionTypes else c.collectionTypes
      mapTypes := if omitted "map_types" then Config.standard.mapTypes else c.mapTypes
      opaqueTerminators :=
        if omitted "opaque_terminators" then Config.standard.opaqueTerminators
        else c.opaqueTerminators
      validatorAnnotations :=
        if omitted "validator_annotations" then Config.standard.validatorAnnotations
        else c.validatorAnnotations
      cascadingMarker :=
        if omitted "cascading_marker" then Config.standard.cascadingMarker else c.cascadingMarker
      valueProperty :=
        if omitted "value_property" then Config.standard.valueProperty else c.valueProperty
      groupsProperty :=
        if omitted "groups_property" then Config.standard.groupsProperty else c.groupsProperty
      maxHierarchyDepth :=
        if omitted "max_hierarchy_depth" then Config.standard.maxHierarchyDepth
        else c.maxHierarchyDepth }

end Defaulted

open Defaulted (withDefaults)

/-- Types whose documents take the defaults of their members as their values do. -/
class LawfulDefaulted (α : Type) [Documented α] [Defaulted α] : Prop where
  shape_eq : shape α = .record (Defaulted.record α)
  exists_members : ∀ x : α, ∃ members, toDocument x = .record members
  toDocument_withDefaults : ∀ (x : α) (omitted : String → Bool),
    (∀ name ∈ (Defaulted.record α).required, omitted name = false) →
      toDocument (withDefaults omitted x) =
        (toDocument x).withDefaults (Defaulted.record α) omitted

namespace Member

variable {omitted : String → Bool} {name : String}

@[simp]
theorem unlessOmitted_required (shape : Shape) (d : Document) (h : omitted name = false) :
    (required name shape).unlessOmitted omitted d = d := by
  rw [unlessOmitted, required, h]
  rfl

@[simp]
theorem unlessOmitted_assumed (shape : Shape) (value d : Document) :
    (assumed name shape value).unlessOmitted omitted d = if omitted name then value else d :=
  rfl

@[simp]
theorem unlessOmitted_several (item : Record) (d : Document) :
    (several name item).unlessOmitted omitted d = if omitted name then .list [] else d :=
  rfl

@[simp]
theorem unlessOmitted_optional (shape : Shape) (d : Document) :
    (optional name shape).unlessOmitted omitted d = if omitted name then .absent else d :=
  rfl

end Member

open Member

theorem ofList_ite {α : Type} (f : α → Document) (b : Bool) (xs : List α) :
    Document.ofList f (if b then [] else xs) = if b then .list [] else .ofList f xs := by
  cases b <;> rfl

theorem ofOption_ite {α : Type} (f : α → Document) (b : Bool) (x : Option α) :
    Document.ofOption f (if b then none else x) = if b then .absent else .ofOption f x := by
  cases b <;> rfl

theorem ofNames_ite (b : Bool) {names : List String} (h : names.Nodup) (s : NameSet) :
    Document.ofNames (if b then NameSet.ofList names else s).names =
      if b then .ofNames names else .ofNames s.names := by
  cases b
  · rfl
  · exact congrArg Document.ofNames (NameSet.names_ofList h)

instance : LawfulDefaulted TypeRef where
  shape_eq := rfl
  exists_members t := by
    obtain ⟨name, qualifiedName, kind, arguments⟩ := t
    exact ⟨_, rfl⟩
  toDocument_withDefaults t omitted hrequired := by
    obtain ⟨name, qualifiedName, kind, arguments⟩ := t
    have hname : omitted "name" = false := hrequired _ (by decide)
    have harguments (empty : Bool) :
        (Member.mk "arguments" (.list (.record .typeRef)) (.assumed (.list [])) empty).unlessOmitted
            omitted (.list (TypeRef.listToDocuments arguments)) =
          .list (TypeRef.listToDocuments (if omitted "arguments" then [] else arguments)) := by
      cases h : omitted "arguments" <;>
        simp [Member.unlessOmitted, Member.fallback?, h, TypeRef.listToDocuments]
    simp [toDocument, TypeRef.toDocument, withDefaults, Document.withDefaults, Defaulted.record,
      Record.members, hname, harguments, apply_ite Document.text, ofOption_ite]

instance : LawfulDefaulted Field where
  shape_eq := rfl
  exists_members _ := ⟨_, rfl⟩
  toDocument_withDefaults f omitted hrequired := by
    have hname : omitted "name" = false := hrequired _ (by decide)
    have htype : omitted "type" = false := hrequired _ (by decide)
    simp [toDocument, Field.toDocument, withDefaults, Document.withDefaults, Defaulted.record,
      Record.members, hname, htype, apply_ite FieldOrigin.toDocument,
      show FieldOrigin.declared.toDocument = .choice "declared" from rfl]

instance : LawfulDefaulted Parameter where
  shape_eq := rfl
  exists_members _ := ⟨_, rfl⟩
  toDocument_withDefaults p omitted hrequired := by
    have hname : omitted "name" = false := hrequired _ (by decide)
    have htype : omitted "type" = false := hrequired _ (by decide)
    simp [toDocument, Parameter.toDocument, withDefaults, Document.withDefaults, Defaulted.record,
      Record.members, hname, htype, ofList_ite]

instance : LawfulDefaulted Method where
  shape_eq := rfl
  exists_members _ := ⟨_, rfl⟩
  toDocument_withDefaults m omitted hrequired := by
    have hname : omitted "name" = false := hrequired _ (by decide)
    have hreturns : omitted "returns" = false := hrequired _ (by decide)
    simp [toDocument, Method.toDocument, withDefaults, Document.withDefaults, Defaulted.record,
      Record.members, hname, hreturns, ofList_ite]

instance : LawfulDefaulted EnumConstant where
  shape_eq := rfl
  exists_members _ := ⟨_, rfl⟩
  toDocument_withDefaults c omitted hrequired := by
    have hname : omitted "name" = false := hrequired _ (by decide)
    have htype : omitted "type" = false := hrequired _ (by decide)
    simp [toDocument, EnumConstant.toDocument, withDefaults, Document.withDefaults,
      Defaulted.record, Record.members, hname, htype, ofOption_ite]

instance : LawfulDefaulted AnnotationUse where
  shape_eq := rfl
  exists_members _ := ⟨_, rfl⟩
  toDocument_withDefaults a omitted hrequired := by
    have htype : omitted "type" = false := hrequired _ (by decide)
    cases hproperties : omitted "properties" <;>
      simp [toDocument, AnnotationUse.toDocument, withDefaults, Document.withDefaults,
        Defaulted.record, Record.members, htype, hproperties, Keyed.empty]

instance : LawfulDefaulted ClassDecl where
  shape_eq := rfl
  exists_members _ := ⟨_, rfl⟩
  toDocument_withDefaults c omitted hrequired := by
    have hname : omitted "name" = false := hrequired _ (by decide)
    have hqualified : omitted "qualified_name" = false := hrequired _ (by decide)
    simp [toDocument, ClassDecl.toDocument, withDefaults, Document.withDefaults, Defaulted.record,
      Record.members, hname, hqualified, apply_ite ClassKind.toDocument,
      show ClassKind.classType.toDocument = .choice "class" from rfl, ofList_ite, ofOption_ite]

instance : LawfulDefaulted Registry where
  shape_eq := rfl
  exists_members _ := ⟨_, rfl⟩
  toDocument_withDefaults r omitted _ := by
    cases hclasses : omitted "classes" <;>
      simp [toDocument, Registry.toDocument, withDefaults, Document.withDefaults, Defaulted.record,
        Record.members, hclasses, Document.ofList, Registry.empty]

instance : LawfulDefaulted Config where
  shape_eq := rfl
  exists_members _ := ⟨_, rfl⟩
  toDocument_withDefaults c omitted _ := by
    have hscalar : Tables.scalarTypes.Nodup := by decide
    have hcollection : Tables.collectionTypes.Nodup := by decide
    have hmap : Tables.mapTypes.Nodup := by decide
    have hterminator : Tables.opaqueTerminators.Nodup := by decide
    have hvalidator : Tables.validatorAnnotations.Nodup := by decide
    simp [toDocument, Config.toDocument, withDefaults, Document.withDefaults, Defaulted.record,
      Record.members, Config.standard, ofNames_ite _ hscalar, ofNames_ite _ hcollection,
      ofNames_ite _ hmap, ofNames_ite _ hterminator, ofNames_ite _ hvalidator,
      apply_ite Document.text, apply_ite Document.count]

variable {α : Type} [Documented α] [Defaulted α]

/-- The object of a value with its entries written freely. -/
def freeText (x : α) (entries : List FreeEntry) : String :=
  String.ofList ((toDocument x).freeText (Defaulted.record α) entries)

/-- The members that are written nest within the limit, inside of the object. -/
def ShallowEntries (x : α) (entries : List FreeEntry) : Prop :=
  ∀ name ∈ written entries,
    ((toDocument x).memberJson (Defaulted.record α) name).nesting < Json.maxDepth

/-- Values that are read from objects with their keys in any order, foreign keys among them. Members
that are left out take their defaults. If one of them is required, the first such in the order of
declaration is reported. -/
structure ReadFreely (α : Type) [Documented α] [Defaulted α] (fits : α → Prop) : Prop where
  accepted : ∀ (x : α) (entries : List FreeEntry), fits x →
    FreeEntry.Fit (Defaulted.record α) entries → ShallowEntries x entries →
    (∀ name ∈ (Defaulted.record α).required, leavesOut entries name = false) →
      Documented.read .json (freeText x entries) = .ok (withDefaults (leavesOut entries) x)
  rejected : ∀ (x : α) (entries : List FreeEntry), fits x →
    FreeEntry.Fit (Defaulted.record α) entries → ShallowEntries x entries →
    ∀ key, (Defaulted.record α).required.find? (leavesOut entries) = some key →
      (Documented.read .json (freeText x entries) : Except Error α) =
        .error (.json (.mismatch (.missing key)))

theorem readFreely_of_lawful [LawfulDefaulted α] {fits : α → Prop}
    (hconforms : ∀ x : α, fits x → Conforms (shape α) (toDocument x))
    (hsame : ∀ x : α, ofDocument (toDocument x) = x) : ReadFreely α fits where
  accepted x entries hfits hfit hshallow hrequired := by
    obtain ⟨members, hmembers⟩ := LawfulDefaulted.exists_members x
    have hx := hconforms x hfits
    have hlaw := LawfulDefaulted.toDocument_withDefaults x (leavesOut entries) hrequired
    rw [ShallowEntries, hmembers] at hshallow
    rw [LawfulDefaulted.shape_eq, hmembers] at hx
    have hread := Json.readDocument_free hx hfit hshallow hrequired
    rw [← hmembers, ← hlaw, ← LawfulDefaulted.shape_eq] at hread
    rw [freeText, Documented.read_of_readDocument hread, hsame]
  rejected x entries hfits hfit hshallow key hkey := by
    obtain ⟨members, hmembers⟩ := LawfulDefaulted.exists_members x
    have hx := hconforms x hfits
    rw [ShallowEntries, hmembers] at hshallow
    rw [LawfulDefaulted.shape_eq, hmembers] at hx
    have hread := Json.readDocument_free_missing hx hfit hshallow hkey
    rw [← hmembers, ← LawfulDefaulted.shape_eq] at hread
    exact Documented.read_of_fault hread

theorem readFreely_of_faithful [Faithful α] [LawfulDefaulted α] : ReadFreely α fun _ => True :=
  readFreely_of_lawful (fun x _ => Faithful.conforms x) ofDocument_toDocument

/-- Every record is read whatever the order of its keys, with foreign keys ignored and missing ones
replaced or reported. -/
theorem readFreely_every_record :
    ReadFreely TypeRef (fun _ => True) ∧ ReadFreely Field (fun _ => True) ∧
      ReadFreely Parameter (fun _ => True) ∧ ReadFreely Method (fun _ => True) ∧
      ReadFreely EnumConstant (fun _ => True) ∧ ReadFreely AnnotationUse (fun _ => True) ∧
      ReadFreely ClassDecl (fun _ => True) ∧ ReadFreely Registry (fun _ => True) ∧
      ReadFreely Config (fun c => c.maxHierarchyDepth < Nat.pow 2 64) := by
  refine ⟨readFreely_of_faithful, readFreely_of_faithful, readFreely_of_faithful,
    readFreely_of_faithful, readFreely_of_faithful, readFreely_of_faithful, readFreely_of_faithful,
    ?_, ?_⟩
  · exact readFreely_of_lawful (fun r _ => registry_conforms r) registry_ofDocument_toDocument
  · exact readFreely_of_lawful (fun _ hfits => config_conforms hfits) config_ofDocument_toDocument

/-- An array of one missing value, and white space in it. -/
theorem wellFormed_spaced_null : Json.WellFormed ['[', ' ', 'n', 'u', 'l', 'l', ']'] := by
  refine @Json.WellFormed.array [] [⟨[' '], ['n', 'u', 'l', 'l'], []⟩] ?_ ?_ ?_
  · simp [Json.AllSpace]
  · simp [Json.Spaced.IsSpaced, Json.AllSpace, Json.isSpace]
  · simpa using Json.WellFormed.word (by simp)

/-- A reference with a foreign key before its name and a field without its type. -/
theorem readFreely_reordered :
    Documented.read .json "\x7b\"deep\":[ null],\"kind\":null,\"name\":\"A\"\x7d" =
        .ok (TypeRef.mk "A" "" none []) ∧
      (Documented.read .json "\x7b\"origin\":\"synthesized\",\"name\":\"id\"\x7d" :
        Except Error Field) = .error (.json (.mismatch (.missing "type"))) ∧
      (Error.json (.mismatch (.missing "type"))).message = "JSON Error: missing field `type`" := by
  obtain ⟨htype, hfield, _⟩ := readFreely_every_record
  have hnamed : FreeEntry.Fit .typeRef
      [.other "deep" ['[', ' ', 'n', 'u', 'l', 'l', ']'], .member "kind", .member "name"] := by
    refine ⟨by decide, by decide, fun key text hentry => ?_⟩
    obtain ⟨rfl, rfl⟩ : key = "deep" ∧ text = ['[', ' ', 'n', 'u', 'l', 'l', ']'] := by
      simpa using hentry
    exact ⟨by decide, wellFormed_spaced_null⟩
  have huntyped : FreeEntry.Fit .field [.member "origin", .member "name"] :=
    ⟨by decide, by decide, by simp⟩
  have hread := htype.accepted (TypeRef.mk "A" "p.A" none []) _ trivial hnamed
    (by unfold ShallowEntries; decide) (by decide)
  have hmissing := hfield.rejected (Field.mk "id" (TypeRef.mk "long" "" none []) .synthesized) _
    trivial huntyped (by unfold ShallowEntries; decide) "type" (by decide)
  exact ⟨hread, hmissing, rfl⟩

end ClassFacts
