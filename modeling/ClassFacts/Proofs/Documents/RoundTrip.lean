import ClassFacts.Proofs.Documents.Accepted
import ClassFacts.Proofs.Documents.Values
import ClassFacts.Proofs.Documents.Written

namespace ClassFacts

open Document (toJson)
open Documented (shape ofDocument toDocument dump)

variable {α : Type} [Documented α]

theorem Json.readDocument_compact {shape : Shape} {d : Document} (h : Conforms shape d)
    (hdepth : (toJson shape d).nesting ≤ Json.maxDepth) :
    Json.readDocument shape (toJson shape d).compact = .ok d := by
  have hread := (Json.reads_of_conforms h hdepth).2 [] Json.ends_nil
  rw [List.append_nil] at hread
  have htext : (toJson shape d).compact.toList = (toJson shape d).compactText := by
    simp [Json.Value.compact]
  rw [← htext] at hread
  exact Json.whole_ok hread

theorem Documented.read_of_readDocument {text : String} {d : Document}
    (h : Json.readDocument (shape α) text = .ok d) :
    Documented.read .json text = .ok (ofDocument d : α) := by
  simp [Documented.read, Format.read, h, Except.mapError, Except.map]

theorem Documented.read_of_fault {text : String} {fault : Json.Fault}
    (h : Json.readDocument (shape α) text = .error fault) :
    (Documented.read .json text : Except Error α) = .error (.json fault) := by
  simp [Documented.read, Format.read, h, Except.mapError, Except.map]

theorem read_dump_of_conforms {x : α} (hconforms : Conforms (shape α) (toDocument x))
    (hsame : ofDocument (toDocument x) = x) (hdepth : (dump x).nesting ≤ Json.maxDepth) :
    Documented.read .json (dump x).compact = .ok x := by
  have hread := Documented.read_of_readDocument (Json.readDocument_compact hconforms hdepth)
  rw [hsame] at hread
  exact hread

theorem exists_of_read {text : String} {x : α} (h : Documented.read .json text = .ok x) :
    ∃ d, Conforms (shape α) d ∧
      (toJson (shape α) d).nesting ≤ max Json.maxDepth (shape α).headroom ∧ ofDocument d = x := by
  cases hd : Json.readDocument (shape α) text with
  | error fault => simp [Documented.read, Format.read, hd, Except.mapError, Except.map] at h
  | ok d =>
    have hx : ofDocument d = x := by
      simpa [Documented.read, Format.read, hd, Except.mapError, Except.map] using h
    obtain ⟨⟨e, rest⟩, he, hrest⟩ := bind_eq_ok.mp hd
    obtain ⟨hconforms, hdepth⟩ := Json.bounded_readShape Json.maxDepth _ _ _ _ he
    dsimp only at hrest
    split at hrest
    next =>
      cases hrest
      exact ⟨_, hconforms, hdepth, hx⟩
    next => cases hrest

/-- Values come back from the text of their dump unless it is too deep, and no accepted text
leads to a dump that is. -/
structure RoundTrips (α : Type) [Documented α] (fits : α → Prop) : Prop where
  read_dump : ∀ x : α, fits x → (dump x).nesting ≤ Json.maxDepth →
    Documented.read .json (dump x).compact = .ok x
  read_again : ∀ (text : String) (x : α), Documented.read .json text = .ok x →
    (dump x).nesting ≤ Json.maxDepth ∧ Documented.read .json (dump x).compact = .ok x

theorem roundTrips_of_faithful [Faithful α] (hroom : (shape α).headroom ≤ Json.maxDepth) :
    RoundTrips α fun _ => True where
  read_dump x _ hdepth :=
    read_dump_of_conforms (Faithful.conforms x) (ofDocument_toDocument x) hdepth
  read_again text x h := by
    obtain ⟨d, hconforms, hdepth, rfl⟩ := exists_of_read h
    have hshallow : (dump (ofDocument d : α)).nesting ≤ Json.maxDepth := by
      rw [dump, toDocument_ofDocument hconforms]
      omega
    exact ⟨hshallow,
      read_dump_of_conforms (Faithful.conforms _) (ofDocument_toDocument _) hshallow⟩

theorem roundTrips_config : RoundTrips Config fun c => c.maxHierarchyDepth < Nat.pow 2 64 where
  read_dump c hfits hdepth :=
    read_dump_of_conforms (config_conforms hfits) (config_ofDocument_toDocument c) hdepth
  read_again text c h := by
    obtain ⟨d, hconforms, hdepth, hc⟩ := exists_of_read h
    obtain ⟨hsame, hfits⟩ := config_toDocument_ofDocument hconforms
    have hdump : dump c = toJson (.record .config) d := by
      rw [← hc]
      exact congrArg (toJson (.record .config)) hsame
    have hshallow : (dump c).nesting ≤ Json.maxDepth := by
      rw [hdump]
      exact hdepth
    rw [← hc] at hshallow ⊢
    exact ⟨hshallow,
      read_dump_of_conforms (config_conforms hfits) (config_ofDocument_toDocument _) hshallow⟩

theorem nesting_model (items : List Document) :
    (toJson (.record .model) (.record [.list items])).nesting =
      Json.itemsNesting (items.map (toJson (.record .classDecl))) + 2 := by
  have homits : (Member.several "classes" .classDecl).omits (.list items) = false := by
    cases items <;> rfl
  have hshape : (Member.several "classes" .classDecl).shape = .list (.record .classDecl) := rfl
  simp [toJson, Document.membersToJson, Record.members, homits, hshape, Json.Value.nesting,
    Json.entriesNesting, Document.itemsToJson_eq]

/-- A model with fewer classes nests no deeper. -/
theorem nesting_model_mono {items others : List Document} (h : ∀ d ∈ items, d ∈ others) :
    (toJson (.record .model) (.record [.list items])).nesting ≤
      (toJson (.record .model) (.record [.list others])).nesting := by
  have hothers := Json.itemsNesting_le_iff.mp
    (Nat.le_refl (Json.itemsNesting (others.map (toJson (.record .classDecl)))))
  have hitems : Json.itemsNesting (items.map (toJson (.record .classDecl))) ≤
      Json.itemsNesting (others.map (toJson (.record .classDecl))) := by
    rw [Json.itemsNesting_le_iff]
    intro v hv
    obtain ⟨d, hd, rfl⟩ := List.mem_map.mp hv
    exact hothers _ (List.mem_map_of_mem (h d hd))
  rw [nesting_model, nesting_model]
  omega

theorem roundTrips_registry : RoundTrips Registry fun _ => True where
  read_dump r _ hdepth :=
    read_dump_of_conforms (registry_conforms r) (registry_ofDocument_toDocument r) hdepth
  read_again text r h := by
    obtain ⟨d, hconforms, hdepth, rfl⟩ := exists_of_read h
    -- A class that gave way to a later one of its name is missing from the dump.
    obtain ⟨items, hd, hclasses⟩ := registry_classes_of_conforms hconforms
    have hshallow : (dump (ofDocument d : Registry)).nesting ≤ Json.maxDepth := by
      refine Nat.le_trans (nesting_model_mono fun e he => ?_) (hd ▸ hdepth)
      obtain ⟨c, hc, rfl⟩ := List.mem_map.mp he
      exact hclasses c hc
    exact ⟨hshallow,
      read_dump_of_conforms (registry_conforms _) (registry_ofDocument_toDocument _) hshallow⟩

/-- Reading undoes dumping for every type of which documents speak, and what an accepted text says
is read again from its dump. -/
theorem roundTrips_every_type :
    RoundTrips Registry (fun _ => True) ∧ RoundTrips ClassDecl (fun _ => True) ∧
      RoundTrips Field (fun _ => True) ∧ RoundTrips Method (fun _ => True) ∧
      RoundTrips Parameter (fun _ => True) ∧ RoundTrips EnumConstant (fun _ => True) ∧
      RoundTrips AnnotationUse (fun _ => True) ∧ RoundTrips AnnotationValue (fun _ => True) ∧
      RoundTrips TypeRef (fun _ => True) ∧
      RoundTrips Config (fun c => c.maxHierarchyDepth < Nat.pow 2 64) := by
  refine ⟨roundTrips_registry, ?_, ?_, ?_, ?_, ?_, ?_, ?_, ?_, roundTrips_config⟩ <;>
    exact roundTrips_of_faithful (by decide)

/-- A reference whose name takes a quotation mark, a backslash, a control character and a
character outside the basic plane. -/
def oddlyNamed : TypeRef :=
  ⟨"a\"\\\x01𝄞", "", some .interface, [⟨"", "p.B", none, []⟩]⟩

def highest : Config :=
  ⟨.empty, .empty, .empty, .empty, .empty, "Valid", "value", "groups", Nat.pow 2 64 - 1⟩

theorem roundTrips_oddlyNamed :
    Documented.read .json (dump oddlyNamed).compact = .ok oddlyNamed ∧
      Documented.read .json (dump highest).compact = .ok highest ∧
      Documented.read .json "[\"A\"]" = .ok (TypeRef.mk "A" "" none []) ∧
      Documented.read .json (dump (TypeRef.mk "A" "" none [])).compact =
        .ok (TypeRef.mk "A" "" none []) := by
  have hread : Documented.read .json "[\"A\"]" = .ok (TypeRef.mk "A" "" none []) := by cbv
  obtain ⟨_, _, _, _, _, _, _, _, htype, hconfig⟩ := roundTrips_every_type
  exact ⟨htype.read_dump oddlyNamed trivial (by decide),
    hconfig.read_dump highest (by decide) (by decide), hread, (htype.read_again _ _ hread).2⟩

end ClassFacts
