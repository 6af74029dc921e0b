import ClassFacts.Proofs.Documents.RoundTrip
import ClassFacts.Proofs.Groups.Listed

namespace ClassFacts.AnnotationUse

open Documented (ofDocument toDocument dump)
open Json (Reads Value readShape)

/-- Properties of which some may have the same name. -/
abbrev Properties :=
  List (String × AnnotationValue)

/-- The annotation to which properties are added one after the other. -/
def built (type : TypeRef) (properties : Properties) : AnnotationUse :=
  properties.foldl (fun a (name, value) => a.withProperty name value) (.ofType type)

/-- The document that lists properties, whatever their names. -/
def listing (type : TypeRef) (properties : Properties) : Value :=
  .object [("type", dump type),
    ("properties", .object (properties.map fun (name, value) => (name, dump value)))]

/-- The last value under a name. -/
def lastValue? (properties : Properties) (name : String) : Option AnnotationValue :=
  (properties.reverse.find? (·.1 == name)).map Prod.snd

/-- An annotation to which properties have been added one after the other: each name has one place,
where it first comes, and the last value under the name stands there. -/
structure Settled (added : Properties) (a : AnnotationUse) : Prop where
  names : Entries.keys a.properties.entries = (added.map Prod.fst).eraseDups
  entries : a.properties.entries.map some =
    (added.map Prod.fst).eraseDups.map fun name => (lastValue? added name).map (name, ·)
  property? : ∀ name, a.property? name = lastValue? added name
  typeRefs? : ∀ name,
    a.typeRefs? name = (lastValue? added name).bind AnnotationValue.typeRefs?

variable {type : TypeRef} {properties others : Properties}

theorem built_concat (type : TypeRef) (properties : Properties) (e : String × AnnotationValue) :
    built type (properties ++ [e]) = (built type properties).withProperty e.1 e.2 := by
  simp [built, List.foldl_append]

theorem built_eq (type : TypeRef) (properties : Properties) :
    built type properties = ⟨type, .ofEntries properties⟩ := by
  induction properties using List.reverseRecOn with
  | nil => rfl
  | append_singleton properties e ih =>
    rw [built_concat, ih, Keyed.ofEntries_concat]
    rfl

theorem built_entries (type : TypeRef) (properties : Properties) :
    (built type properties).properties.entries =
      Entries.gathered Prod.fst Prod.snd properties := by
  rw [built_eq, Keyed.entries_ofEntries_eq]

theorem settled_built (type : TypeRef) (properties : Properties) :
    Settled properties (built type properties) := by
  have hproperty : ∀ name, (built type properties).property? name =
      lastValue? properties name := by
    intro name
    rw [AnnotationUse.property?, Keyed.get?, built_entries, Entries.get?_gathered]
    rfl
  refine ⟨?_, ?_, hproperty, fun name => ?_⟩
  · rw [built_entries, Entries.keys_gathered]
  · rw [built_entries, Entries.map_some_gathered]
    rfl
  · rw [AnnotationUse.typeRefs?, hproperty]

theorem simpleName_built (type : TypeRef) (properties : Properties) :
    (built type properties).simpleName = type.name := by
  rw [built_eq]
  rfl

/-- Annotations of one type are alike if the last values under the name that is read agree. -/
theorem alike_built {config : Config}
    (h : ∀ name, Groups.Reads config (.ofType type) name →
      lastValue? others name = lastValue? properties name) :
    Groups.Alike config (built type others) (built type properties) := by
  have hother := simpleName_built type others
  refine ⟨hother.trans (simpleName_built type properties).symm, fun name hreads value => ?_⟩
  have hname : Groups.Reads config (.ofType type) name := by
    rw [← Groups.property?_eq_some_iff] at hreads ⊢
    rw [← hreads]
    exact Groups.property?_congr hother.symm
  have hsame : (built type others).property? name = (built type properties).property? name := by
    rw [(settled_built type others).property?, (settled_built type properties).property?,
      h name hname]
  rw [← Entries.get?_eq_some_iff (Keyed.distinct _), ← Entries.get?_eq_some_iff (Keyed.distinct _)]
  exact Eq.congr_left hsame

/-- What is read of the properties that are listed. -/
def listed (properties : Properties) : Document :=
  .table (Entries.gathered Prod.fst (fun e => e.2.toDocument) properties)

theorem reads_listed {depth : Nat}
    (hdepth : ∀ e ∈ properties.map fun (name, value) => (name, dump value), e.2.nesting ≤ depth) :
    Reads (readShape (depth + 1) (.table .value))
      (Value.object (properties.map fun (name, value) => (name, dump value))).compactText
      (listed properties) := by
  have hread := @Json.reads_gathered depth .value
    (properties.map fun e => (e.1, e.2.toDocument, dump e.2)) (by
      intro p hp
      obtain ⟨e, he, rfl⟩ := List.mem_map.mp hp
      exact Json.reads_of_conforms e.2.conforms_toDocument
        (hdepth _ (List.mem_map.mpr ⟨e, he, rfl⟩)))
  rw [List.map_map, Entries.gathered, List.foldl_map] at hread
  exact hread

/-- The members of an annotation with the JSON values that stand for them. -/
def listingMembers (type : TypeRef) (properties : Properties) :
    List ((Member × Document) × Value) :=
  [((.required "type" (.record .typeRef), type.toDocument), dump type),
    ((.assumed "properties" (.table .value) (.table []), listed properties),
      .object (properties.map fun (name, value) => (name, dump value)))]

theorem reads_listingMembers {depth : Nat}
    (hdepth : ∀ p ∈ listingMembers type properties, p.2.nesting ≤ depth) :
    ∀ p ∈ listingMembers type properties,
      Reads (Json.readMember (readShape depth) p.1.1) p.2.compactText p.1.2 := by
  rw [listingMembers, List.forall_mem_cons, List.forall_mem_singleton] at hdepth ⊢
  obtain ⟨htype, hproperties⟩ := hdepth
  refine ⟨?_, ?_⟩
  · exact Json.reads_member (spells_toJson type.conforms_toDocument)
      (Json.reads_of_conforms type.conforms_toDocument htype)
  · obtain ⟨k, rfl, hvalues⟩ := Json.exists_succ_of_nesting_object hproperties
    refine Json.reads_member_of_ne ?_ (reads_listed hvalues)
    rw [Json.object_compactText]
    simp

theorem readDocument_listing (hdepth : (listing type properties).nesting ≤ Json.maxDepth) :
    Json.readDocument (.record .annotationUse) (listing type properties).compact =
      .ok (.record [type.toDocument, listed properties]) := by
  have hlisting : listing type properties =
      .object ((listingMembers type properties).map fun p => (p.1.1.name, p.2)) := rfl
  rw [hlisting] at hdepth ⊢
  obtain ⟨k, hk, hmembers⟩ := Json.exists_succ_of_nesting_object hdepth
  have hwritten : (listingMembers type properties).map Prod.fst =
      Document.written (Record.members .annotationUse) [type.toDocument, listed properties] := by
    cases type
    rfl
  have hreads := reads_listingMembers fun p hp => hmembers _ (List.mem_map.mpr ⟨p, hp, rfl⟩)
  have hread := Json.readShape_object rfl hwritten hreads []
  rw [List.append_nil, ← hk, ← @String.toList_ofList (Value.compactText _)] at hread
  exact Json.whole_ok hread

theorem ofDocument_listed (type : TypeRef) (properties : Properties) :
    ofDocument (.record [type.toDocument, listed properties]) = built type properties := by
  have hvalues : (Entries.gathered Prod.fst (fun e => e.2.toDocument) properties).map
      (fun e => (e.1, AnnotationValue.ofDocument e.2)) =
        (built type properties).properties.entries := by
    rw [Entries.map_gathered, built_entries]
    simp only [AnnotationValue.ofDocument_toDocument]
  show AnnotationUse.mk (TypeRef.ofDocument type.toDocument) (.ofEntries
    ((Entries.gathered Prod.fst (fun e => e.2.toDocument) properties).map
      fun e => (e.1, AnnotationValue.ofDocument e.2))) = _
  rw [hvalues, TypeRef.ofDocument_toDocument, Keyed.ofEntries_entries, built_eq]

theorem read_listing (hdepth : (listing type properties).nesting ≤ Json.maxDepth) :
    Documented.read .json (listing type properties).compact = .ok (built type properties) := by
  rw [← ofDocument_listed]
  exact Documented.read_of_readDocument (readDocument_listing hdepth)

/-- A document in which names of properties are repeated is read as what comes of adding the
properties one after the other. Under each name the last value counts, for the groups that are
listed too. -/
theorem read_repeated_properties (type : TypeRef) (properties : Properties)
    (hdepth : (listing type properties).nesting ≤ Json.maxDepth) :
    Documented.read .json (listing type properties).compact = .ok (built type properties) ∧
      Settled properties (built type properties) ∧
      ∀ (config : Config) (others : Properties),
        (∀ name, Groups.Reads config (.ofType type) name →
          lastValue? others name = lastValue? properties name) →
        Groups.ofUse config (built type others) = Groups.ofUse config (built type properties) :=
  ⟨read_listing hdepth, settled_built type properties,
    fun _ _ h => Groups.ofUse_congr (alike_built h)⟩

def constraint : TypeRef :=
  ⟨"NotNull", "a.NotNull", none, []⟩

/-- Two lists of groups, and a message between them. -/
def regrouped : Properties :=
  [("groups", .typeRef Groups.groupA), ("message", .literal "\"\\n\""),
    ("groups", .list [.typeRef Groups.groupB, .typeRef Groups.groupA])]

theorem read_repeated_properties_regrouped :
    (listing constraint regrouped).nesting ≤ Json.maxDepth ∧
      Documented.read .json (listing constraint regrouped).compact =
        .ok (built constraint regrouped) ∧
      Entries.keys (built constraint regrouped).properties.entries = ["groups", "message"] ∧
      (built constraint regrouped).typeRefs? "groups" = some [Groups.groupB, Groups.groupA] ∧
      Groups.ofUse Groups.checking (built constraint (regrouped.drop 2)) =
        Groups.ofUse Groups.checking (built constraint regrouped) := by
  have hdepth : (listing constraint regrouped).nesting ≤ Json.maxDepth := by decide
  obtain ⟨hread, hsettled, hgroups⟩ := read_repeated_properties constraint regrouped hdepth
  refine ⟨hdepth, hread, ?_, ?_, hgroups Groups.checking (regrouped.drop 2) ?_⟩
  · rw [hsettled.names]
    rfl
  · rw [hsettled.typeRefs?]
    rfl
  · rintro name (h | _)
    · exact absurd h (by decide)
    · rfl

end ClassFacts.AnnotationUse
