import ClassFacts.Groups
import ClassFacts.Proofs.Except
import ClassFacts.Proofs.Keyed

namespace ClassFacts

namespace AnnotationValue

/-- The types that a value lists: a class literal lists its own, and an array those of its entries
if they are class literals, every one of them. -/
inductive Lists : AnnotationValue → List TypeRef → Prop
  | one (type : TypeRef) : Lists (.typeRef type) [type]
  | all (types : List TypeRef) : Lists (.list (types.map .typeRef)) types

theorem classLiteral?_eq_some_iff {value : AnnotationValue} {type : TypeRef} :
    value.classLiteral? = some type ↔ value = .typeRef type := by
  cases value <;> simp [classLiteral?]

theorem mapM_classLiteral?_eq_some_iff {items : List AnnotationValue} {types : List TypeRef} :
    items.mapM classLiteral? = some types ↔ items = types.map .typeRef := by
  constructor
  · intro h
    have hitems : List.Forall₂ (· = ·) items (types.map .typeRef) :=
      List.forall₂_map_right_iff.mpr
        ((forall₂_of_mapM h).imp fun _ _ => classLiteral?_eq_some_iff.mp)
    rwa [List.forall₂_eq_eq_eq] at hitems
  · rintro rfl
    induction types with
    | nil => rfl
    | cons type rest ih => simp [classLiteral?, ih]

theorem typeRefs?_eq_some_iff {value : AnnotationValue} {types : List TypeRef} :
    value.typeRefs? = some types ↔ value.Lists types := by
  constructor
  · intro h
    cases value with
    | typeRef type =>
      cases h
      exact .one type
    | list items =>
      obtain rfl := mapM_classLiteral?_eq_some_iff.mp h
      exact .all types
    | literal source => cases h
  · rintro (⟨type⟩ | ⟨types⟩)
    · rfl
    · exact mapM_classLiteral?_eq_some_iff.mpr rfl

theorem typeRefs?_eq_none_iff {value : AnnotationValue} :
    value.typeRefs? = none ↔ ∀ types, ¬ value.Lists types := by
  simp only [Option.eq_none_iff_forall_ne_some, ne_eq, typeRefs?_eq_some_iff]

end AnnotationValue

namespace Groups

/-- The property in which an annotation may list groups, by its simple name: a name that is the
cascading marker in any case counts as that, whether or not it is a validator too. -/
inductive Reads (config : Config) (a : AnnotationUse) : String → Prop
  | marker : Config.sameIgnoringCase a.simpleName config.cascadingMarker = true →
      Reads config a config.valueProperty
  | validator : Config.sameIgnoringCase a.simpleName config.cascadingMarker = false →
      a.simpleName ∈ config.validatorAnnotations.names → Reads config a config.groupsProperty

/-- The groups that an annotation lists. -/
def Lists (config : Config) (a : AnnotationUse) (groups : List TypeRef) : Prop :=
  ∃ property value, Reads config a property ∧ a.property? property = some value ∧
    value.Lists groups

/-- An annotation is ignored if it has the property but lists no types in it. -/
def Ignored (config : Config) (a : AnnotationUse) : Prop :=
  ∃ property value, Reads config a property ∧ a.property? property = some value ∧
    ∀ groups, ¬ value.Lists groups

/-- Annotations of one simple name with the same value, or none, for the property that is read. The
rest of their types and their other properties may differ, and the order of all. -/
def Alike (config : Config) (a b : AnnotationUse) : Prop :=
  a.simpleName = b.simpleName ∧ ∀ property, Reads config a property →
    ∀ value, (property, value) ∈ a.properties.entries ↔ (property, value) ∈ b.properties.entries

variable {config : Config}

theorem property?_eq_some_iff {a : AnnotationUse} {property : String} :
    property? config a = some property ↔ Reads config a property := by
  unfold property? Config.isCascadingMarker Config.isValidator NameSet.contains
  constructor
  · intro h
    split at h
    next hmarker =>
      cases h
      exact .marker hmarker
    next hmarker =>
      split at h
      next hvalidator =>
        cases h
        exact .validator (Bool.eq_false_iff.mpr hmarker) (List.contains_iff_mem.mp hvalidator)
      next => cases h
  · rintro (hmarker | ⟨hmarker, hvalidator⟩)
    · exact if_pos hmarker
    · rw [if_neg (Bool.eq_false_iff.mp hmarker), if_pos (List.contains_iff_mem.mpr hvalidator)]

theorem bind_property?_eq_some_iff {a : AnnotationUse} {value : AnnotationValue} :
    (property? config a).bind a.property? = some value ↔
      ∃ property, Reads config a property ∧ a.property? property = some value := by
  simp only [Option.bind_eq_some_iff, property?_eq_some_iff]

theorem ofUse_of_lists {a : AnnotationUse} {groups : List TypeRef} (h : Lists config a groups) :
    ofUse config a = ⟨groups.map TypeRef.canonicalName, []⟩ := by
  obtain ⟨property, value, hreads, hvalue, hlists⟩ := h
  rw [ofUse, bind_property?_eq_some_iff.mpr ⟨property, hreads, hvalue⟩]
  simp only [AnnotationValue.typeRefs?_eq_some_iff.mpr hlists]

theorem ofUse_of_ignored {a : AnnotationUse} (h : Ignored config a) :
    ofUse config a = ⟨[], [.notAClassList]⟩ := by
  obtain ⟨property, value, hreads, hvalue, hnone⟩ := h
  rw [ofUse, bind_property?_eq_some_iff.mpr ⟨property, hreads, hvalue⟩]
  simp only [AnnotationValue.typeRefs?_eq_none_iff.mpr hnone]

theorem ofUse_of_neither {a : AnnotationUse} (hlists : ∀ groups, ¬ Lists config a groups)
    (hignored : ¬ Ignored config a) : ofUse config a = ⟨[], []⟩ := by
  unfold ofUse
  cases hvalue : (property? config a).bind a.property? with
  | none => rfl
  | some value =>
    obtain ⟨property, hreads, hproperty⟩ := bind_property?_eq_some_iff.mp hvalue
    refine absurd ⟨property, value, hreads, hproperty, fun groups hgroups => ?_⟩ hignored
    exact hlists groups ⟨property, value, hreads, hproperty, hgroups⟩

theorem ofUse_result_eq_nil {a : AnnotationUse} (h : ∀ groups, ¬ Lists config a groups) :
    (ofUse config a).result = [] := by
  by_cases hignored : Ignored config a
  · rw [ofUse_of_ignored hignored]
  · rw [ofUse_of_neither h hignored]

theorem ignored_iff {a : AnnotationUse} :
    (((property? config a).bind a.property?).any fun value => value.typeRefs?.isNone) = true ↔
      Ignored config a := by
  constructor
  · intro h
    cases hvalue : (property? config a).bind a.property? with
    | none => simp [hvalue] at h
    | some value =>
      obtain ⟨property, hreads, hproperty⟩ := bind_property?_eq_some_iff.mp hvalue
      have hnone : value.typeRefs? = none := by simpa [hvalue] using h
      exact ⟨property, value, hreads, hproperty, AnnotationValue.typeRefs?_eq_none_iff.mp hnone⟩
  · rintro ⟨property, value, hreads, hvalue, hnone⟩
    rw [bind_property?_eq_some_iff.mpr ⟨property, hreads, hvalue⟩]
    simpa using AnnotationValue.typeRefs?_eq_none_iff.mpr hnone

instance (config : Config) (a : AnnotationUse) : Decidable (Ignored config a) :=
  decidable_of_iff _ ignored_iff

theorem ofUse_events (a : AnnotationUse) :
    (ofUse config a).events = if Ignored config a then [.notAClassList] else [] := by
  split
  next h => rw [ofUse_of_ignored h]
  next h =>
    by_cases hlists : ∃ groups, Lists config a groups
    · obtain ⟨groups, hgroups⟩ := hlists
      rw [ofUse_of_lists hgroups]
    · rw [ofUse_of_neither (not_exists.mp hlists) h]

theorem property?_congr {a b : AnnotationUse} (h : a.simpleName = b.simpleName) :
    property? config a = property? config b := by
  simp only [property?, h]

theorem ofUse_congr {a b : AnnotationUse} (h : Alike config a b) :
    ofUse config a = ofUse config b := by
  have hname := @property?_congr config a b h.1
  have hvalue : (property? config a).bind a.property? = (property? config b).bind b.property? := by
    rw [← hname]
    cases hproperty : property? config a with
    | none => rfl
    | some property =>
      apply Option.ext
      intro value
      have hsame := h.2 property (property?_eq_some_iff.mp hproperty) value
      rw [← Entries.get?_eq_some_iff a.properties.distinct,
        ← Entries.get?_eq_some_iff b.properties.distinct] at hsame
      exact hsame
  simp only [ofUse, hvalue]

theorem ofAnnotations_eq (annotations : List AnnotationUse) :
    ofAnnotations config annotations =
      ⟨annotations.flatMap fun a => (ofUse config a).result,
        annotations.flatMap fun a => (ofUse config a).events⟩ := by
  induction annotations with
  | nil => rfl
  | cons a rest ih => simp [ofAnnotations, Logged.bind, Logged.map, ih]

theorem ofAnnotations_congr {annotations others : List AnnotationUse}
    (h : List.Forall₂ (Alike config) annotations others) :
    ofAnnotations config annotations = ofAnnotations config others := by
  induction h with
  | nil => rfl
  | cons hhead _ ih => rw [ofAnnotations, ofAnnotations, ofUse_congr hhead, ih]

theorem ofAnnotations_events (annotations : List AnnotationUse) :
    (ofAnnotations config annotations).events =
      List.replicate (annotations.countP fun a => Ignored config a) .notAClassList := by
  rw [ofAnnotations_eq]
  induction annotations with
  | nil => rfl
  | cons a rest ih =>
    simp only [List.flatMap_cons, List.countP_cons] at ih ⊢
    rw [ih, ofUse_events]
    by_cases h : Ignored config a
    · simp [h, List.replicate_succ]
    · simp [h]

/-- The groups of some annotations are those that they list, one annotation after the other and
with repetitions. An annotation that lists none in the property that is read for its name has none,
not even some of the entries there; if it has that property, this is said. Nothing else in an
annotation counts. -/
theorem ofAnnotations_lists (config : Config) (annotations : List AnnotationUse) :
    (ofAnnotations config annotations).result =
      annotations.flatMap (fun a => (ofUse config a).result) ∧
    (∀ a groups, Lists config a groups →
      (ofUse config a).result = groups.map TypeRef.canonicalName) ∧
    (∀ a, (∀ groups, ¬ Lists config a groups) → (ofUse config a).result = []) ∧
    (∀ others, (ofAnnotations config (annotations ++ others)).result =
      (ofAnnotations config annotations).result ++ (ofAnnotations config others).result) ∧
    (∀ others, List.Forall₂ (Alike config) annotations others →
      ofAnnotations config others = ofAnnotations config annotations) ∧
    (ofAnnotations config annotations).lines =
      List.replicate (annotations.countP fun a => Ignored config a)
        (.debug, "validation: property is not a class list, ignored") := by
  refine ⟨?_, ?_, fun a => ofUse_result_eq_nil, ?_, ?_, ?_⟩
  · rw [ofAnnotations_eq]
  · intro a groups h
    rw [ofUse_of_lists h]
  · intro others
    simp only [ofAnnotations_eq, List.flatMap_append]
  · exact fun others h => (ofAnnotations_congr h).symm
  · rw [Logged.lines, ofAnnotations_events, List.map_replicate]
    rfl

/-- The marker stands among the validators here, in other letters. -/
def checking : Config :=
  ⟨.empty, .empty, .empty, .empty, .ofList ["NotNull", "VALIDATED"], "Validated", "value", "groups",
    1⟩

def groupA : TypeRef :=
  ⟨"A", "x.A", none, []⟩

def groupB : TypeRef :=
  ⟨"B", "x.B", none, []⟩

/-- An annotation with an array for both of the properties. -/
def annotated (name : String) (value groups : List AnnotationValue) : AnnotationUse :=
  ⟨⟨name, "a." ++ name, none, []⟩, .ofEntries [("value", .list value), ("groups", .list groups)]⟩

/-- A marker that is a validator too. -/
def marked : AnnotationUse :=
  annotated "VALIDATED" [.typeRef groupA, .typeRef groupB, .typeRef groupA] []

/-- A validator with an array in an array. -/
def nested : AnnotationUse :=
  annotated "NotNull" [] [.typeRef groupA, .list [.typeRef groupB]]

theorem lists_marked : Lists checking marked [groupA, groupB, groupA] :=
  ⟨"value", _, .marker (by decide), rfl, .all [groupA, groupB, groupA]⟩

theorem not_lists_nested (groups : List TypeRef) : ¬ Lists checking nested groups := by
  rintro ⟨property, value, hreads, hvalue, hlisted⟩
  cases hreads with
  | marker h => exact absurd h (by decide)
  | validator =>
    have hsome : nested.property? "groups" =
        some (.list [.typeRef groupA, .list [.typeRef groupB]]) := rfl
    cases hsome.symm.trans hvalue
    cases AnnotationValue.typeRefs?_eq_some_iff.mpr hlisted

/-- The same simple name and the same groups, and all else another. -/
def remarked : AnnotationUse :=
  ⟨⟨"VALIDATED", "b.VALIDATED", none, [groupB]⟩,
    .ofEntries [("groups", .typeRef groupB),
      ("value", .list [.typeRef groupA, .typeRef groupB, .typeRef groupA])]⟩

theorem alike_remarked : Alike checking marked remarked := by
  refine ⟨rfl, ?_⟩
  rintro property (h | ⟨h, -⟩) value
  · rw [← Entries.get?_eq_some_iff marked.properties.distinct,
      ← Entries.get?_eq_some_iff remarked.properties.distinct]
    rfl
  · exact absurd h (by decide)

theorem ofAnnotations_lists_marked :
    (ofAnnotations checking [marked, nested]).result = ["x.A", "x.B", "x.A"] ∧
      (ofAnnotations checking [marked, nested]).lines =
        [(.debug, "validation: property is not a class list, ignored")] ∧
      ofAnnotations checking [remarked, nested] = ofAnnotations checking [marked, nested] := by
  obtain ⟨hresult, hlists, hnone, -, halike, hlines⟩ :=
    ofAnnotations_lists checking [marked, nested]
  have hsame : Alike checking nested nested := ⟨rfl, fun _ _ _ => Iff.rfl⟩
  refine ⟨?_, ?_, halike _ (.cons alike_remarked (.cons hsame .nil))⟩
  · rw [hresult, List.flatMap_cons, List.flatMap_singleton, hlists _ _ lists_marked,
      hnone _ not_lists_nested]
    rfl
  · rw [hlines]
    rfl

end Groups

end ClassFacts
