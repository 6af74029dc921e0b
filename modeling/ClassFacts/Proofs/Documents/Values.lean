import ClassFacts.Proofs.Documents.Faithful
import ClassFacts.Proofs.Registry

namespace ClassFacts

open Document
open Documented (shape ofDocument toDocument)

instance : Faithful AnnotationUse where
  conforms a := conforms_record_iff.mpr ⟨_, .cons (.inr (Faithful.conforms a.type))
    (.cons (.inr (Faithful.conforms a.properties)) .nil), rfl⟩
  ofDocument_toDocument a := by
    obtain ⟨type, properties⟩ := a
    show AnnotationUse.mk (ofDocument (toDocument type)) (ofDocument (toDocument properties)) = _
    rw [ofDocument_toDocument, ofDocument_toDocument]
  toDocument_ofDocument h := by
    obtain ⟨members, hmembers, rfl⟩ := conforms_record_iff.mp h
    match members, hmembers with
    | [type, properties], .cons htype (.cons hproperties .nil) =>
      obtain ⟨entries, rfl⟩ : ∃ entries, properties = .table entries := by
        cases hproperties.conforms rfl
        exact ⟨_, rfl⟩
      show Document.record [toDocument (ofDocument type : TypeRef),
        toDocument (ofDocument (.table entries) : Keyed AnnotationValue)] = _
      rw [toDocument_ofDocument (htype.conforms rfl),
        toDocument_ofDocument (hproperties.conforms rfl)]

instance : Faithful Field where
  conforms f := conforms_record_iff.mpr ⟨_, .cons (.inr (.text f.name))
    (.cons (.inr (Faithful.conforms f.type)) (.cons (.inr (Faithful.conforms f.origin)) .nil)), rfl⟩
  ofDocument_toDocument f := by
    obtain ⟨name, type, origin⟩ := f
    show Field.mk name (ofDocument (toDocument type)) (ofDocument (toDocument origin)) = _
    rw [ofDocument_toDocument, ofDocument_toDocument]
  toDocument_ofDocument h := by
    obtain ⟨members, hmembers, rfl⟩ := conforms_record_iff.mp h
    match members, hmembers with
    | [name, type, origin], .cons hname (.cons htype (.cons horigin .nil)) =>
      show Document.record [.text name.asText, toDocument (ofDocument type : TypeRef),
        toDocument (ofDocument origin : FieldOrigin)] = _
      rw [text_asText (hname.conforms rfl), toDocument_ofDocument (htype.conforms rfl),
        toDocument_ofDocument (horigin.conforms rfl)]

instance : Faithful Parameter where
  conforms p := conforms_record_iff.mpr ⟨_, .cons (.inr (.text p.name))
    (.cons (.inr (Faithful.conforms p.type)) (.cons (.inr (Faithful.conforms p.annotations)) .nil)),
    rfl⟩
  ofDocument_toDocument p := by
    obtain ⟨name, type, annotations⟩ := p
    show Parameter.mk name (ofDocument (toDocument type)) (ofDocument (toDocument annotations)) = _
    rw [ofDocument_toDocument, ofDocument_toDocument]
  toDocument_ofDocument h := by
    obtain ⟨members, hmembers, rfl⟩ := conforms_record_iff.mp h
    match members, hmembers with
    | [name, type, annotations], .cons hname (.cons htype (.cons hannotations .nil)) =>
      show Document.record [.text name.asText, toDocument (ofDocument type : TypeRef),
        toDocument (ofDocument annotations : List AnnotationUse)] = _
      rw [text_asText (hname.conforms rfl), toDocument_ofDocument (htype.conforms rfl),
        toDocument_ofDocument (hannotations.conforms rfl)]

instance : Faithful Method where
  conforms m := conforms_record_iff.mpr ⟨_, .cons (.inr (.text m.name))
    (.cons (.inr (Faithful.conforms m.returns)) (.cons (.inr (Faithful.conforms m.annotations))
      (.cons (.inr (Faithful.conforms m.parameters)) .nil))), rfl⟩
  ofDocument_toDocument m := by
    obtain ⟨name, returns, annotations, parameters⟩ := m
    show Method.mk name (ofDocument (toDocument returns)) (ofDocument (toDocument annotations))
      (ofDocument (toDocument parameters)) = _
    rw [ofDocument_toDocument, ofDocument_toDocument, ofDocument_toDocument]
  toDocument_ofDocument h := by
    obtain ⟨members, hmembers, rfl⟩ := conforms_record_iff.mp h
    match members, hmembers with
    | [name, returns, annotations, parameters],
      .cons hname (.cons hreturns (.cons hannotations (.cons hparameters .nil))) =>
      show Document.record [.text name.asText, toDocument (ofDocument returns : TypeRef),
        toDocument (ofDocument annotations : List AnnotationUse),
        toDocument (ofDocument parameters : List Parameter)] = _
      rw [text_asText (hname.conforms rfl), toDocument_ofDocument (hreturns.conforms rfl),
        toDocument_ofDocument (hannotations.conforms rfl),
        toDocument_ofDocument (hparameters.conforms rfl)]

instance : Faithful EnumConstant where
  conforms c := conforms_record_iff.mpr ⟨_, .cons (.inr (.text c.name))
    (.cons (.inr (Faithful.conforms c.type)) (.cons (holds_ofOption rfl rfl c.arguments) .nil)),
    rfl⟩
  ofDocument_toDocument c := by
    obtain ⟨name, type, arguments⟩ := c
    show EnumConstant.mk name (ofDocument (toDocument type))
      (asOption ofDocument (ofOption toDocument arguments)) = _
    rw [ofDocument_toDocument, asOption_ofOption]
  toDocument_ofDocument h := by
    obtain ⟨members, hmembers, rfl⟩ := conforms_record_iff.mp h
    match members, hmembers with
    | [name, type, arguments], .cons hname (.cons htype (.cons harguments .nil)) =>
      show Document.record [.text name.asText, toDocument (ofDocument type : TypeRef),
        ofOption toDocument (arguments.asOption (ofDocument : Document → List String))] = _
      rw [text_asText (hname.conforms rfl), toDocument_ofDocument (htype.conforms rfl),
        ofOption_asOption rfl harguments]

instance : Faithful ClassDecl where
  conforms c := conforms_record_iff.mpr ⟨_, .cons (.inr (.text c.name))
    (.cons (.inr (.text c.qualifiedName)) (.cons (.inr (Faithful.conforms c.kind))
      (.cons (.inr (Faithful.conforms c.fields)) (.cons (.inr (Faithful.conforms c.methods))
        (.cons (.inr (Faithful.conforms c.annotations)) (.cons (holds_ofOption rfl rfl c.superclass)
          (.cons (.inr (Faithful.conforms c.enumConstants))
            (.cons (.inr (Faithful.conforms c.typeArguments)) .nil)))))))), rfl⟩
  ofDocument_toDocument c := by
    obtain ⟨name, qualifiedName, kind, fields, methods, annotations, superclass, enumConstants,
      typeArguments⟩ := c
    show ClassDecl.mk name qualifiedName (ofDocument (toDocument kind))
      (ofDocument (toDocument fields)) (ofDocument (toDocument methods))
      (ofDocument (toDocument annotations)) (asOption ofDocument (ofOption toDocument superclass))
      (ofDocument (toDocument enumConstants)) (ofDocument (toDocument typeArguments)) = _
    rw [ofDocument_toDocument, ofDocument_toDocument, ofDocument_toDocument, ofDocument_toDocument,
      asOption_ofOption, ofDocument_toDocument, ofDocument_toDocument]
  toDocument_ofDocument h := by
    obtain ⟨members, hmembers, rfl⟩ := conforms_record_iff.mp h
    match members, hmembers with
    | [name, qualifiedName, kind, fields, methods, annotations, superclass, enumConstants,
        typeArguments],
      .cons hname (.cons hqualified (.cons hkind (.cons hfields (.cons hmethods (.cons hannotations
        (.cons hsuperclass (.cons hconstants (.cons harguments .nil)))))))) =>
      show Document.record [.text name.asText, .text qualifiedName.asText,
        toDocument (ofDocument kind : ClassKind), toDocument (ofDocument fields : List Field),
        toDocument (ofDocument methods : List Method),
        toDocument (ofDocument annotations : List AnnotationUse),
        ofOption toDocument (superclass.asOption (ofDocument : Document → TypeRef)),
        toDocument (ofDocument enumConstants : List EnumConstant),
        toDocument (ofDocument typeArguments : List TypeRef)] = _
      rw [text_asText (hname.conforms rfl), text_asText (hqualified.conforms rfl),
        toDocument_ofDocument (hkind.conforms rfl), toDocument_ofDocument (hfields.conforms rfl),
        toDocument_ofDocument (hmethods.conforms rfl),
        toDocument_ofDocument (hannotations.conforms rfl), ofOption_asOption rfl hsuperclass,
        toDocument_ofDocument (hconstants.conforms rfl),
        toDocument_ofDocument (harguments.conforms rfl)]

theorem config_conforms {c : Config} (h : c.maxHierarchyDepth < Nat.pow 2 64) :
    Conforms (.record .config) c.toDocument :=
  conforms_record_iff.mpr ⟨_, .cons (.inr (Faithful.conforms c.scalarTypes))
    (.cons (.inr (Faithful.conforms c.collectionTypes))
      (.cons (.inr (Faithful.conforms c.mapTypes))
        (.cons (.inr (Faithful.conforms c.opaqueTerminators))
          (.cons (.inr (Faithful.conforms c.validatorAnnotations))
            (.cons (.inr (.text c.cascadingMarker)) (.cons (.inr (.text c.valueProperty))
              (.cons (.inr (.text c.groupsProperty)) (.cons (.inr (.count h)) .nil)))))))), rfl⟩

theorem config_ofDocument_toDocument (c : Config) : Config.ofDocument c.toDocument = c := by
  obtain ⟨scalarTypes, collectionTypes, mapTypes, opaqueTerminators, validatorAnnotations,
    cascadingMarker, valueProperty, groupsProperty, maxHierarchyDepth⟩ := c
  show Config.mk (ofDocument (toDocument scalarTypes)) (ofDocument (toDocument collectionTypes))
    (ofDocument (toDocument mapTypes)) (ofDocument (toDocument opaqueTerminators))
    (ofDocument (toDocument validatorAnnotations)) cascadingMarker valueProperty groupsProperty
    maxHierarchyDepth = _
  simp only [ofDocument_toDocument]

theorem config_toDocument_ofDocument {d : Document} (h : Conforms (.record .config) d) :
    (Config.ofDocument d).toDocument = d ∧
      (Config.ofDocument d).maxHierarchyDepth < Nat.pow 2 64 := by
  obtain ⟨members, hmembers, rfl⟩ := conforms_record_iff.mp h
  match members, hmembers with
  | [scalarTypes, collectionTypes, mapTypes, opaqueTerminators, validatorAnnotations,
      cascadingMarker, valueProperty, groupsProperty, maxHierarchyDepth],
    .cons hscalar (.cons hcollection (.cons hmap (.cons hterminator (.cons hvalidator (.cons hmarker
      (.cons hvalue (.cons hgroups (.cons hdepth .nil)))))))) =>
    obtain ⟨n, hn, rfl⟩ : ∃ n < Nat.pow 2 64, maxHierarchyDepth = .count n := by
      cases hdepth.conforms rfl with
      | count hn => exact ⟨_, hn, rfl⟩
    refine ⟨?_, hn⟩
    show Document.record [toDocument (ofDocument scalarTypes : NameSet),
      toDocument (ofDocument collectionTypes : NameSet), toDocument (ofDocument mapTypes : NameSet),
      toDocument (ofDocument opaqueTerminators : NameSet),
      toDocument (ofDocument validatorAnnotations : NameSet), .text cascadingMarker.asText,
      .text valueProperty.asText, .text groupsProperty.asText, .count n] = _
    rw [toDocument_ofDocument (hscalar.conforms rfl),
      toDocument_ofDocument (hcollection.conforms rfl),
      toDocument_ofDocument (hmap.conforms rfl),
      toDocument_ofDocument (hterminator.conforms rfl),
      toDocument_ofDocument (hvalidator.conforms rfl), text_asText (hmarker.conforms rfl),
      text_asText (hvalue.conforms rfl), text_asText (hgroups.conforms rfl)]

theorem registry_conforms (r : Registry) :
    Conforms (.record .model) r.toDocument :=
  conforms_record_iff.mpr ⟨_, .cons (.inr (Faithful.conforms r.classes)) .nil, rfl⟩

theorem registry_ofDocument_toDocument (r : Registry) : Registry.ofDocument r.toDocument = r := by
  show Registry.ofClasses (ofDocument (toDocument r.classes)) = r
  rw [ofDocument_toDocument, Registry.ofClasses_classes]

/-- What is dumped of a model that was read was in its document. -/
theorem registry_classes_of_conforms {d : Document} (h : Conforms (.record .model) d) :
    ∃ items, d = .record [.list items] ∧
      ∀ c ∈ (Registry.ofDocument d).classes, toDocument c ∈ items := by
  obtain ⟨members, hmembers, rfl⟩ := conforms_record_iff.mp h
  match members, hmembers with
  | [classes], .cons hclasses .nil =>
    obtain ⟨items, hitems, rfl⟩ : ∃ items : List Document,
        (∀ e ∈ items, Conforms (.record .classDecl) e) ∧ classes = .list items := by
      cases hclasses.conforms rfl with
      | list hitems => exact ⟨_, hitems, rfl⟩
    refine ⟨items, rfl, fun c hc => ?_⟩
    obtain ⟨e, he, rfl⟩ := List.mem_map.mp (Registry.mem_of_mem_ofClasses hc)
    have hsame : toDocument (ClassDecl.ofDocument e) = e :=
      toDocument_ofDocument (α := ClassDecl) (hitems e he)
    rw [hsame]
    exact he

end ClassFacts
