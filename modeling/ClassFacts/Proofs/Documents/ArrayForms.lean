import ClassFacts.Proofs.Documents.Defaults
import ClassFacts.Proofs.Documents.RoundTrip

namespace ClassFacts

open Documented (shape ofDocument toDocument dump)
open Json (Value Reads readMember readShape readPositional separated)

theorem Json.readDocument_spelled {shape : Shape} {d : Document} {v : Value} (h : Spells shape d v)
    (hdepth : v.nesting ≤ Json.maxDepth) : Json.readDocument shape v.compact = .ok d := by
  have hread := (Json.reads_of_spells h hdepth).2 [] Json.ends_nil
  rw [List.append_nil] at hread
  have htext : v.compact.toList = v.compactText := by
    simp [Json.Value.compact]
  rw [← htext] at hread
  exact Json.whole_ok hread

/-- Values that are read from all that stands for them, their own dump being one such. -/
structure ReadsSpellings (α : Type) [Documented α] (fits : α → Prop) : Prop where
  dump_spells : ∀ x : α, fits x → Spells (shape α) (toDocument x) (dump x)
  read_spelling : ∀ (x : α) (v : Value), Spells (shape α) (toDocument x) v →
    v.nesting ≤ Json.maxDepth → Documented.read .json v.compact = .ok x

section Spellings

variable {α : Type} [Documented α]

theorem readsSpellings_of_conforms {fits : α → Prop}
    (hconforms : ∀ x : α, fits x → Conforms (shape α) (toDocument x))
    (hsame : ∀ x : α, ofDocument (toDocument x) = x) : ReadsSpellings α fits where
  dump_spells x hfits := spells_toJson (hconforms x hfits)
  read_spelling x v hspells hdepth := by
    have hread := Documented.read_of_readDocument (α := α)
      (Json.readDocument_spelled hspells hdepth)
    rw [hsame] at hread
    exact hread

theorem readsSpellings_of_faithful [Faithful α] : ReadsSpellings α fun _ => True :=
  readsSpellings_of_conforms (fun x _ => Faithful.conforms x) ofDocument_toDocument

end Spellings

/-- The texts that are read as an item of an array for a member. The array is itself one of the
containers that may be nested. -/
def Member.Takes (m : Member) (text : List Char) : Prop :=
  ∃ d, Reads (readMember (readShape 126) m) text d

theorem Member.takes_of_spelledBy {m : Member} {d : Document} {v : Value} (h : m.SpelledBy d v)
    (hdepth : v.nesting < Json.maxDepth) : m.Takes v.compactText := by
  rcases h with ⟨hoptional, rfl, rfl⟩ | hspells
  · exact ⟨_, Json.reads_null hoptional⟩
  · exact ⟨d, Json.reads_member hspells (Json.reads_of_spells hspells (Nat.le_of_lt_succ hdepth))⟩

def Json.arrayText (texts : List (List Char)) : List Char :=
  '[' :: (separated true texts ++ [']'])

/-- Elements of which each is taken for the member in its place, as far as there are members. -/
def Record.Elements (r : Record) (texts : List (List Char)) : Prop :=
  ∀ p ∈ r.members.zip texts, p.1.Takes p.2

namespace Record

variable {r : Record} {texts : List (List Char)}

/-- The members that have to be written come before all the others. -/
theorem fallback?_of_take (r : Record) :
    (∀ m ∈ r.members.take r.required.length, m.fallback? = none) ∧
      ∀ m ∈ r.members.drop r.required.length, m.fallback?.isSome := by
  cases r <;> simp [members, required, Member.required, Member.assumed, Member.optional,
    Member.several, Member.fallback?]

theorem members_ne_nil (r : Record) : r.members ≠ [] := by
  cases r <;> exact List.cons_ne_nil _ _

theorem required_length_le (r : Record) : r.required.length ≤ r.members.length := by
  cases r <;> decide

theorem exists_documents {pairs : List (Member × List Char)} (h : ∀ p ∈ pairs, p.1.Takes p.2) :
    ∃ ps : List ((Member × Document) × List Char), ps.map (fun p => (p.1.1, p.2)) = pairs ∧
      ∀ p ∈ ps, Reads (readMember (readShape 126) p.1.1) p.2 p.1.2 := by
  induction pairs with
  | nil => exact ⟨[], rfl, by simp⟩
  | cons pair pairs ih =>
    obtain ⟨d, hd⟩ := h pair (by simp)
    obtain ⟨ps, hps, hread⟩ := ih fun p hp => h p (by simp [hp])
    exact ⟨((pair.1, d), pair.2) :: ps, by simp [hps], List.forall_mem_cons.mpr ⟨hd, hread⟩⟩

/-- Behind the elements that are taken, the other members are read from the other elements. -/
theorem readShape_elements (h : r.Elements texts) {n : Nat}
    (hn : n = min r.members.length texts.length) :
    ∃ ds : List Document, readShape Json.maxDepth (.record r) (Json.arrayText texts) =
      (readPositional (readShape 126) r (r.members.drop n) n
        (separated (n == 0) (texts.drop n) ++ [']'])).map
          fun (rest, text) => (.record (ds ++ rest), text) := by
  obtain ⟨ps, hps, hread⟩ := exists_documents h
  rw [List.zip_eq_zip_take_min, ← hn] at hps
  have hmembers : ps.map (·.1.1) = r.members.take n := by
    have hfst := congrArg (List.map Prod.fst) hps
    rw [List.map_map, List.map_fst_zip (by simp; omega)] at hfst
    exact hfst
  have htexts : ps.map Prod.snd = texts.take n := by
    have hsnd := congrArg (List.map Prod.snd) hps
    rw [List.map_map, List.map_snd_zip (by simp; omega)] at hsnd
    exact hsnd
  have hlength : ps.length = n := by
    have hlengths := congrArg List.length htexts
    rw [List.length_map, List.length_take] at hlengths
    omega
  have hfront := Json.readPositional_append (r := r) hread (r.members.drop n) 0
    (texts.drop n) []
  rw [hmembers, htexts, List.take_append_drop, List.take_append_drop, Nat.zero_add, hlength]
    at hfront
  refine ⟨ps.map (·.1.2), ?_⟩
  rw [Json.arrayText, show Json.maxDepth = 126 + 1 from rfl, Json.readShape_positional,
    show true = ((0 : Nat) == 0) from rfl, hfront]
  cases readPositional (readShape 126) r (r.members.drop n) n
    (separated (n == 0) (texts.drop n) ++ [']']) <;> rfl

theorem readDocument_elements (h : r.Elements texts) (hleast : r.required.length ≤ texts.length)
    (hmost : texts.length ≤ r.members.length) :
    ∃ d, Json.readDocument (.record r) (String.ofList (Json.arrayText texts)) = .ok d := by
  obtain ⟨ds, hread⟩ := readShape_elements h (Nat.min_eq_right hmost).symm
  have hfst : ((r.members.drop texts.length).map fun m => (m, m.fallback?.getD .absent)).map
      Prod.fst = r.members.drop texts.length := by
    simp [Function.comp_def]
  have hfallback : ∀ q ∈ (r.members.drop texts.length).map fun m => (m, m.fallback?.getD .absent),
      q.1.fallback? = some q.2 := by
    intro q hq
    obtain ⟨m, hm, rfl⟩ := List.mem_map.mp hq
    have hsome := r.fallback?_of_take.2 m (List.drop_subset_drop_left _ hleast hm)
    obtain ⟨d, hd⟩ := Option.isSome_iff_exists.mp hsome
    simp [hd]
  have hclose := @Json.readPositional_close (readShape 126) r _ hfallback texts.length []
  rw [List.drop_length, Json.separated, List.nil_append, ← hfst, hclose] at hread
  rw [← String.toList_ofList (l := Json.arrayText texts)] at hread
  exact ⟨_, Json.whole_ok hread⟩

/-- An array that ends before a member that has to be written names how far it got. -/
theorem readDocument_elements_short (h : r.Elements texts)
    (hshort : texts.length < r.required.length) :
    Json.readDocument (.record r) (String.ofList (Json.arrayText texts)) =
      .error (.mismatch (.wrongLength texts.length r.title r.members.length)) := by
  have hlt : texts.length < r.members.length := Nat.lt_of_lt_of_le hshort r.required_length_le
  obtain ⟨ds, hread⟩ := readShape_elements h (Nat.min_eq_right (Nat.le_of_lt hlt)).symm
  have hnone : r.members[texts.length].fallback? = none :=
    r.fallback?_of_take.1 _ (List.mem_take_iff_getElem.mpr ⟨texts.length, by omega, rfl⟩)
  rw [List.drop_length, Json.separated, List.nil_append, List.drop_eq_getElem_cons hlt,
    Json.readPositional_short r hnone] at hread
  exact Json.whole_error (by rw [String.toList_ofList]; exact hread)

/-- An array that goes on after the last member is no text at all. -/
theorem readDocument_elements_long (h : r.Elements texts)
    (hlong : r.members.length < texts.length) :
    Json.readDocument (.record r) (String.ofList (Json.arrayText texts)) = .error .malformed := by
  obtain ⟨ds, hread⟩ := readShape_elements h (Nat.min_eq_left (Nat.le_of_lt hlong)).symm
  have hpos : (r.members.length == 0) = false := by
    simpa using r.members_ne_nil
  rw [List.drop_eq_getElem_cons hlong, List.drop_length, hpos] at hread
  exact Json.whole_error (by rw [String.toList_ofList]; exact hread)

end Record

section Arrays

variable {α : Type} [Documented α] [Defaulted α]

/-- Types that are read from the arrays that have at least the elements that are required, and at
most one for each member. -/
structure ReadsArrays (α : Type) [Documented α] [Defaulted α] : Prop where
  takes_spelled : ∀ m ∈ (Defaulted.record α).members, ∀ (d : Document) (v : Value),
    m.SpelledBy d v → v.nesting < Json.maxDepth → m.Takes v.compactText
  accepted_iff : ∀ texts, (Defaulted.record α).Elements texts →
    ((∃ x : α, Documented.read .json (String.ofList (Json.arrayText texts)) = .ok x) ↔
      (Defaulted.record α).required.length ≤ texts.length ∧
        texts.length ≤ (Defaulted.record α).members.length)
  short : ∀ texts, (Defaulted.record α).Elements texts →
    texts.length < (Defaulted.record α).required.length →
      ∃ cause : Json.Mismatch,
        (Documented.read .json (String.ofList (Json.arrayText texts)) : Except Error α) =
          .error (.json (.mismatch cause)) ∧
        cause.message = "invalid length " ++ toString texts.length ++ ", expected struct " ++
          (Defaulted.record α).title ++ " with " ++
          toString (Defaulted.record α).members.length ++ " elements"
  long : ∀ texts, (Defaulted.record α).Elements texts →
    (Defaulted.record α).members.length < texts.length →
      (Documented.read .json (String.ofList (Json.arrayText texts)) : Except Error α) =
        .error (.json .malformed)

/-- A record with a required member has more than one. -/
theorem Record.members_length_ne_one {r : Record} (h : 0 < r.required.length) :
    r.members.length ≠ 1 := by
  cases r <;> simp_all [required, members]

theorem Record.wrongLength_message {r : Record} {n : Nat} (h : n < r.required.length) :
    (Json.Mismatch.wrongLength n r.title r.members.length).message =
      "invalid length " ++ toString n ++ ", expected struct " ++ r.title ++ " with " ++
        toString r.members.length ++ " elements" := by
  have hplural : " elements" = " element" ++ if r.members.length = 1 then "" else "s" := by
    rw [if_neg (members_length_ne_one (Nat.zero_lt_of_lt h))]
    decide
  rw [hplural, ← String.append_assoc]
  unfold Json.Mismatch.message
  dsimp only

theorem readsArrays_of_lawful [LawfulDefaulted α] : ReadsArrays α := by
  have hshape := LawfulDefaulted.shape_eq (α := α)
  have hshort : ∀ texts, (Defaulted.record α).Elements texts →
      texts.length < (Defaulted.record α).required.length →
        (Documented.read .json (String.ofList (Json.arrayText texts)) : Except Error α) =
          .error (.json (.mismatch (.wrongLength texts.length (Defaulted.record α).title
            (Defaulted.record α).members.length))) := fun texts h hlt =>
    Documented.read_of_fault (by rw [hshape]; exact Record.readDocument_elements_short h hlt)
  have hlong : ∀ texts, (Defaulted.record α).Elements texts →
      (Defaulted.record α).members.length < texts.length →
        (Documented.read .json (String.ofList (Json.arrayText texts)) : Except Error α) =
          .error (.json .malformed) := fun texts h hlt =>
    Documented.read_of_fault (by rw [hshape]; exact Record.readDocument_elements_long h hlt)
  refine ⟨fun m _ d v => Member.takes_of_spelledBy, fun texts h => ⟨?_, ?_⟩,
    fun texts h hlt => ⟨_, hshort texts h hlt, Record.wrongLength_message hlt⟩, hlong⟩
  · rintro ⟨x, hx⟩
    constructor
    · by_contra hlt
      rw [hshort texts h (by omega)] at hx
      cases hx
    · by_contra hlt
      rw [hlong texts h (by omega)] at hx
      cases hx
  · rintro ⟨hleast, hmost⟩
    obtain ⟨d, hd⟩ := Record.readDocument_elements h hleast hmost
    exact ⟨_, Documented.read_of_readDocument (by rw [hshape]; exact hd)⟩

end Arrays

/-- All that stands for a value is read as that value, and an array stands for a record only if it
has an element for each required member and none too many. -/
theorem spellings_every_type :
    (ReadsSpellings TypeKind (fun _ => True) ∧ ReadsSpellings ClassKind (fun _ => True) ∧
      ReadsSpellings FieldOrigin (fun _ => True) ∧ ReadsSpellings TypeRef (fun _ => True) ∧
      ReadsSpellings AnnotationValue (fun _ => True) ∧
      ReadsSpellings AnnotationUse (fun _ => True) ∧ ReadsSpellings Field (fun _ => True) ∧
      ReadsSpellings Parameter (fun _ => True) ∧ ReadsSpellings Method (fun _ => True) ∧
      ReadsSpellings EnumConstant (fun _ => True) ∧ ReadsSpellings ClassDecl (fun _ => True) ∧
      ReadsSpellings Registry (fun _ => True) ∧
      ReadsSpellings Config (fun c => c.maxHierarchyDepth < Nat.pow 2 64)) ∧
    (ReadsArrays TypeRef ∧ ReadsArrays AnnotationUse ∧ ReadsArrays Field ∧
      ReadsArrays Parameter ∧ ReadsArrays Method ∧ ReadsArrays EnumConstant ∧
      ReadsArrays ClassDecl ∧ ReadsArrays Registry ∧ ReadsArrays Config) := by
  refine ⟨⟨?_, ?_, ?_, ?_, ?_, ?_, ?_, ?_, ?_, ?_, ?_, ?_, ?_⟩,
    readsArrays_of_lawful, readsArrays_of_lawful, readsArrays_of_lawful, readsArrays_of_lawful,
    readsArrays_of_lawful, readsArrays_of_lawful, readsArrays_of_lawful, readsArrays_of_lawful,
    readsArrays_of_lawful⟩
  case refine_12 =>
    exact readsSpellings_of_conforms (fun r _ => registry_conforms r) registry_ofDocument_toDocument
  case refine_13 =>
    exact readsSpellings_of_conforms (fun _ hfits => config_conforms hfits)
      config_ofDocument_toDocument
  all_goals exact readsSpellings_of_faithful

/-- A reference that is an array of its name alone. -/
theorem spells_array_typeRef :
    Spells (.record .typeRef) (.record [.text "T", .text "", .absent, .list []])
      (.array [.text "T"]) := by
  refine @Spells.array .typeRef _ [((.required "name" .text, .text "T"), .text "T")] _ rfl rfl
    ?_ ?_ ?_
  · simp
  · simp [Member.required, Spells.text]
  · simp [Member.assumed, Member.optional, Member.fallback?]

theorem spells_array_field :
    Spells (.record .field) (.record [.text "id",
        .record [.text "T", .text "", .absent, .list []], .choice "synthesized"])
      (.array [.text "id", .array [.text "T"], .object [("synthesized", .null)]]) := by
  refine @Spells.array .field _ [((.required "name" .text, .text "id"), .text "id"),
    ((.required "type" (.record .typeRef), _), .array [.text "T"]),
    ((.assumed "origin" (.choice .fieldOrigin) (.choice "declared"), .choice "synthesized"),
      .object [("synthesized", .null)])] [] rfl rfl ?_ ?_ ?_
  · simp
  · simp only [List.forall_mem_cons]
    exact ⟨fun _ => .text "id", fun _ => spells_array_typeRef, fun _ => .variant (by decide), by simp⟩
  · simp

/-- A field that is an array with an array and a variant in it, one that ends too early and one
that goes on too long. -/
theorem spellings_array_field :
    Documented.read .json "[\"id\",[\"T\"],\x7b\"synthesized\":null\x7d]" =
        .ok (Field.mk "id" (TypeRef.mk "T" "" none []) .synthesized) ∧
      (∃ cause : Json.Mismatch,
        (Documented.read .json "[\"id\"]" : Except Error Field) = .error (.json (.mismatch cause)) ∧
        cause.message = "invalid length 1, expected struct FieldDescriptor with 3 elements") ∧
      (Documented.read .json "[\"id\",[\"T\"],\"declared\",0]" : Except Error Field) =
        .error (.json .malformed) := by
  obtain ⟨⟨_, _, _, _, _, _, hfield, _⟩, _, _, harrays, _⟩ := spellings_every_type
  have hname : (Member.required "name" .text).Takes (Value.text "id").compactText :=
    harrays.takes_spelled _ (.head _) _ _ (.inr (.text "id")) (by decide)
  have htype : (Member.required "type" (.record .typeRef)).Takes
      (Value.array [.text "T"]).compactText :=
    harrays.takes_spelled _ (.tail _ (.head _)) _ _ (.inr spells_array_typeRef) (by decide)
  have horigin : (Member.assumed "origin" (.choice .fieldOrigin) (.choice "declared")).Takes
      (Value.text "declared").compactText :=
    harrays.takes_spelled _ (.tail _ (.tail _ (.head _))) _ _ (.inr (.name (by decide))) (by decide)
  have hshort : Record.field.Elements [(Value.text "id").compactText] :=
    List.forall_mem_cons.mpr ⟨hname, by simp⟩
  have hlong : Record.field.Elements [(Value.text "id").compactText,
      (Value.array [.text "T"]).compactText, (Value.text "declared").compactText, ['0']] :=
    List.forall_mem_cons.mpr ⟨hname, List.forall_mem_cons.mpr ⟨htype,
      List.forall_mem_cons.mpr ⟨horigin, by simp⟩⟩⟩
  have hread := hfield.read_spelling (Field.mk "id" (TypeRef.mk "T" "" none []) .synthesized) _
    spells_array_field (by decide)
  obtain ⟨cause, hcause, hmessage⟩ := harrays.short _ hshort (by decide)
  have hrefused := harrays.long _ hlong (by decide)
  rw [show Value.compact _ = "[\"id\",[\"T\"],\x7b\"synthesized\":null\x7d]" by decide] at hread
  rw [show String.ofList _ = "[\"id\"]" by decide] at hcause
  rw [show String.ofList _ = "[\"id\",[\"T\"],\"declared\",0]" by decide] at hrefused
  refine ⟨hread, ⟨cause, hcause, hmessage.trans ?_⟩, hrefused⟩
  decide

end ClassFacts
