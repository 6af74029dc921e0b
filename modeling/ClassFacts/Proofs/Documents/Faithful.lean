import ClassFacts.Documented
import ClassFacts.Proofs.Documents.Conforms
import ClassFacts.Proofs.Keyed

namespace ClassFacts

open Document
open Documented (shape ofDocument toDocument)

/-- Types whose values and whose documents say the same. -/
class Faithful (α : Type) [Documented α] : Prop where
  conforms : ∀ x : α, Conforms (shape α) (toDocument x)
  ofDocument_toDocument : ∀ x : α, ofDocument (toDocument x) = x
  toDocument_ofDocument : ∀ {d : Document}, Conforms (shape α) d → toDocument (ofDocument d : α) = d

export Faithful (ofDocument_toDocument toDocument_ofDocument)

instance : Documented String :=
  ⟨.text, asText, .text⟩

instance : Faithful String where
  conforms s := .text s
  ofDocument_toDocument _ := rfl
  toDocument_ofDocument h := by
    cases h
    rfl

theorem text_asText {d : Document} (h : Conforms .text d) : text d.asText = d :=
  toDocument_ofDocument (α := String) h

variable {α : Type}

theorem choice_asChoice {c : Choice} {d : Document} (ofName : String → α) (name : α → String)
    (h : Conforms (.choice c) d) (hname : ∀ n ∈ c.variants, name (ofName n) = n) :
    Document.choice (name (ofName d.asChoice)) = d := by
  cases h with
  | choice hmem => exact congrArg Document.choice (hname _ hmem)

instance : Faithful TypeKind where
  conforms k := by
    cases k <;> exact .choice (by decide)
  ofDocument_toDocument k := by
    cases k <;> rfl
  toDocument_ofDocument h := choice_asChoice TypeKind.ofName TypeKind.name h (by decide)

instance : Faithful ClassKind where
  conforms k := by
    cases k <;> exact .choice (by decide)
  ofDocument_toDocument k := by
    cases k <;> rfl
  toDocument_ofDocument h := choice_asChoice ClassKind.ofName ClassKind.name h (by decide)

instance : Faithful FieldOrigin where
  conforms o := by
    cases o <;> exact .choice (by decide)
  ofDocument_toDocument o := by
    cases o <;> rfl
  toDocument_ofDocument h := choice_asChoice FieldOrigin.ofName FieldOrigin.name h (by decide)

theorem map_map_eq_self {α β : Type} {f : α → β} {g : β → α} {xs : List α}
    (h : ∀ x ∈ xs, g (f x) = x) : (xs.map f).map g = xs := by
  rw [List.map_map]
  exact (List.map_congr_left h).trans (List.map_id xs)

theorem asOption_of_ne_absent {f : Document → α} {d : Document} (h : d ≠ .absent) :
    asOption f d = some (f d) := by
  cases d with
  | absent => exact absurd rfl h
  | _ => rfl

variable [Documented α] [Faithful α]

instance : Faithful (List α) where
  conforms xs := by
    refine .list fun d hd => ?_
    obtain ⟨x, _, rfl⟩ := List.mem_map.mp hd
    exact Faithful.conforms x
  ofDocument_toDocument xs := map_map_eq_self fun x _ => ofDocument_toDocument x
  toDocument_ofDocument h := by
    cases h with
    | list h =>
      have hitems := map_map_eq_self fun d hd => toDocument_ofDocument (α := α) (h d hd)
      exact congrArg Document.list hitems

instance : Documented (Keyed α) where
  shape := .table (shape α)
  ofDocument
    | .table entries => .ofEntries (entries.map fun (name, d) => (name, ofDocument d))
    | _ => .empty
  toDocument m := .table (m.entries.map fun (name, x) => (name, toDocument x))

instance : Faithful (Keyed α) where
  conforms m := by
    refine .table ?_ ?_
    · simpa [Entries.keys, Function.comp_def] using m.distinct
    · intro e he
      obtain ⟨f, _, rfl⟩ := List.mem_map.mp he
      exact Faithful.conforms f.2
  ofDocument_toDocument m := by
    have hentries : ∀ e ∈ m.entries, (e.1, (ofDocument (toDocument e.2) : α)) = e := by
      intro e _
      rw [ofDocument_toDocument]
    exact (congrArg Keyed.ofEntries (map_map_eq_self hentries)).trans (Keyed.ofEntries_entries m)
  toDocument_ofDocument h := by
    cases h with
    | @table _ entries hnodup h =>
      have hentries : ∀ e ∈ entries, (e.1, toDocument (ofDocument e.2 : α)) = e := by
        intro e he
        rw [toDocument_ofDocument (h e he)]
      have hkeys : (Entries.keys (entries.map fun e => (e.1, (ofDocument e.2 : α)))).Nodup := by
        simpa [Entries.keys, Function.comp_def] using hnodup
      have hof : (ofDocument (.table entries) : Keyed α).entries =
          entries.map fun e => (e.1, ofDocument e.2) := Keyed.entries_ofEntries hkeys
      refine congrArg Document.table ?_
      rw [hof]
      exact map_map_eq_self hentries

instance : Documented NameSet :=
  ⟨.names, NameSet.ofDocument, fun s => .ofNames s.names⟩

instance : Faithful NameSet where
  conforms s := .names s.distinct
  ofDocument_toDocument s := by
    have hnames : (s.names.map Document.text).map asText = s.names := map_map_eq_self fun _ _ => rfl
    exact (congrArg NameSet.ofList hnames).trans (NameSet.ofList_names s)
  toDocument_ofDocument h := by
    cases h with
    | @names names hnodup =>
      have hnames : (names.map Document.text).map asText = names := map_map_eq_self fun _ _ => rfl
      show Document.ofNames (NameSet.ofList ((names.map Document.text).map asText)).names = _
      rw [hnames, NameSet.names_ofList hnodup]

theorem holds_ofOption {m : Member} (hm : m.isOptional = true) (hshape : m.shape = shape α)
    (x : Option α) : m.Holds (ofOption toDocument x) := by
  cases x with
  | none => exact .inl ⟨hm, rfl⟩
  | some x =>
    refine .inr ?_
    rw [hshape]
    exact Faithful.conforms x

theorem asOption_ofOption (x : Option α) : asOption ofDocument (ofOption toDocument x) = x := by
  cases x with
  | none => rfl
  | some x =>
    have hne := (Faithful.conforms x).ne_absent
    rw [ofOption, asOption_of_ne_absent hne, ofDocument_toDocument]

theorem ofOption_asOption {m : Member} (hshape : m.shape = shape α) {d : Document} (h : m.Holds d) :
    ofOption toDocument (asOption (ofDocument : Document → α) d) = d := by
  rcases h with ⟨_, rfl⟩ | h
  · rfl
  · rw [hshape] at h
    rw [asOption_of_ne_absent h.ne_absent, ofOption, toDocument_ofDocument h]

namespace TypeRef

theorem listToDocuments_eq (ts : List TypeRef) : listToDocuments ts = ts.map toDocument := by
  induction ts with
  | nil => rfl
  | cons t rest ih => rw [listToDocuments, ih, List.map_cons]

theorem listOfDocuments_eq (ds : List Document) : listOfDocuments ds = ds.map ofDocument := by
  induction ds with
  | nil => rfl
  | cons d rest ih => rw [listOfDocuments, ih, List.map_cons]

theorem conforms_toDocument (t : TypeRef) : Conforms (.record .typeRef) t.toDocument := by
  obtain ⟨name, qualifiedName, kind, arguments⟩ := t
  have harguments : ∀ d ∈ listToDocuments arguments, Conforms (.record .typeRef) d := by
    intro d hd
    rw [listToDocuments_eq] at hd
    obtain ⟨a, ha, rfl⟩ := List.mem_map.mp hd
    exact conforms_toDocument a
  exact conforms_record_iff.mpr ⟨_, .cons (.inr (.text name)) (.cons (.inr (.text qualifiedName))
    (.cons (holds_ofOption rfl rfl kind) (.cons (.inr (.list harguments)) .nil))), rfl⟩

theorem ofDocument_toDocument (t : TypeRef) : ofDocument t.toDocument = t := by
  obtain ⟨name, qualifiedName, kind, arguments⟩ := t
  have hkind : asOption TypeKind.ofDocument (ofOption TypeKind.toDocument kind) = kind :=
    asOption_ofOption kind
  have harguments : ∀ a ∈ arguments, ofDocument a.toDocument = a :=
    fun a _ => ofDocument_toDocument a
  rw [toDocument, ofDocument, hkind, listToDocuments_eq, listOfDocuments_eq,
    map_map_eq_self harguments]
  rfl

theorem exists_of_conforms {d : Document} (h : Conforms (.record .typeRef) d) :
    ∃ name qualifiedName kind arguments, d = .record [name, qualifiedName, kind, .list arguments] ∧
      Conforms .text name ∧ Conforms .text qualifiedName ∧
      ofOption TypeKind.toDocument (kind.asOption TypeKind.ofDocument) = kind ∧
      ∀ a ∈ arguments, Conforms (.record .typeRef) a := by
  obtain ⟨members, hmembers, rfl⟩ := conforms_record_iff.mp h
  match members, hmembers with
  | [name, qualifiedName, kind, arguments],
    .cons hname (.cons hqualified (.cons hkind (.cons harguments .nil))) =>
    obtain ⟨items, hitems, rfl⟩ : ∃ items : List Document,
        (∀ a ∈ items, Conforms (.record .typeRef) a) ∧ arguments = .list items := by
      cases harguments.conforms rfl with
      | list hitems => exact ⟨_, hitems, rfl⟩
    exact ⟨name, qualifiedName, kind, items, rfl, hname.conforms rfl, hqualified.conforms rfl,
      ofOption_asOption (α := TypeKind) rfl hkind, hitems⟩

theorem toDocument_ofDocument {d : Document} (h : Conforms (.record .typeRef) d) :
    (ofDocument d).toDocument = d := by
  obtain ⟨name, qualifiedName, kind, arguments, hd, hname, hqualified, hkind, hconforms⟩ :=
    exists_of_conforms h
  have harguments : ∀ a ∈ arguments, (ofDocument a).toDocument = a :=
    fun a ha => toDocument_ofDocument (hconforms a ha)
  rw [hd, ofDocument, toDocument, text_asText hname, text_asText hqualified, hkind,
    listOfDocuments_eq, listToDocuments_eq, map_map_eq_self harguments]
termination_by sizeOf d
decreasing_by
  have hsize := List.sizeOf_lt_of_mem ha
  simp only [hd, Document.record.sizeOf_spec, Document.list.sizeOf_spec, List.cons.sizeOf_spec]
  omega

end TypeRef

instance : Faithful TypeRef where
  conforms := TypeRef.conforms_toDocument
  ofDocument_toDocument := TypeRef.ofDocument_toDocument
  toDocument_ofDocument := TypeRef.toDocument_ofDocument

namespace AnnotationValue

theorem listToDocuments_eq (vs : List AnnotationValue) :
    listToDocuments vs = vs.map toDocument := by
  induction vs with
  | nil => rfl
  | cons v rest ih => rw [listToDocuments, ih, List.map_cons]

theorem listOfDocuments_eq (ds : List Document) : listOfDocuments ds = ds.map ofDocument := by
  induction ds with
  | nil => rfl
  | cons d rest ih => rw [listOfDocuments, ih, List.map_cons]

theorem conforms_toDocument (v : AnnotationValue) : Conforms .value v.toDocument := by
  cases v with
  | typeRef type => exact .form rfl (Faithful.conforms type)
  | literal source => exact .form rfl (.text source)
  | list items =>
    refine .form rfl (.list fun d hd => ?_)
    rw [listToDocuments_eq] at hd
    obtain ⟨v, hv, rfl⟩ := List.mem_map.mp hd
    exact conforms_toDocument v

theorem ofDocument_toDocument (v : AnnotationValue) : ofDocument v.toDocument = v := by
  cases v with
  | typeRef type => exact congrArg AnnotationValue.typeRef (type.ofDocument_toDocument)
  | literal source => rfl
  | list items =>
    have hitems : ∀ v ∈ items, ofDocument v.toDocument = v := fun v _ => ofDocument_toDocument v
    rw [toDocument, ofDocument, listToDocuments_eq, listOfDocuments_eq, map_map_eq_self hitems]

theorem forms_cases {name : String} {payload : Shape}
    (h : valueForms.lookup name = some payload) :
    name = "type_ref" ∧ payload = .record .typeRef ∨ name = "list" ∧ payload = .list .value ∨
      name = "literal" ∧ payload = .text := by
  simpa [valueForms] using mem_of_lookup h

theorem toDocument_ofDocument {d : Document} (h : Conforms .value d) :
    (ofDocument d).toDocument = d := by
  obtain ⟨name, payload, e, hname, he, hd⟩ : ∃ name payload e,
      valueForms.lookup name = some payload ∧ Conforms payload e ∧ d = .form name e := by
    cases h with
    | form hname he => exact ⟨_, _, _, hname, he, rfl⟩
  rcases forms_cases hname with ⟨hn, rfl⟩ | ⟨hn, rfl⟩ | ⟨hn, rfl⟩
  · rw [hd, hn, ofDocument, toDocument, TypeRef.toDocument_ofDocument he]
  · obtain ⟨items, hconforms, hi⟩ : ∃ items : List Document,
        (∀ a ∈ items, Conforms .value a) ∧ e = .list items := by
      cases he with
      | list hitems => exact ⟨_, hitems, rfl⟩
    have hitems : ∀ a ∈ items, (ofDocument a).toDocument = a :=
      fun a ha => toDocument_ofDocument (hconforms a ha)
    rw [hd, hn, hi, ofDocument, toDocument, listOfDocuments_eq, listToDocuments_eq,
      map_map_eq_self hitems]
  · rw [hd, hn]
    exact congrArg (Document.form "literal") (text_asText he)
termination_by sizeOf d
decreasing_by
  have hsize := List.sizeOf_lt_of_mem ha
  simp only [hd, hi, Document.form.sizeOf_spec, Document.list.sizeOf_spec]
  omega

end AnnotationValue

instance : Faithful AnnotationValue where
  conforms := AnnotationValue.conforms_toDocument
  ofDocument_toDocument := AnnotationValue.ofDocument_toDocument
  toDocument_ofDocument := AnnotationValue.toDocument_ofDocument

end ClassFacts
