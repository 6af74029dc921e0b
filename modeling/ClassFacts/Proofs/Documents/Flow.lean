import ClassFacts.Json.Dump
import ClassFacts.Proofs.Documents.Values
import ClassFacts.Proofs.Documents.Written
import ClassFacts.Proofs.Yaml.Flow

namespace ClassFacts

open Yaml (Flow)
open Yaml.Flow (isPrintable isShortKey isBareWord Fine)

namespace Document

mutual

/-- What a document says in the flow style: its JSON value with a tag for each form. Of the strings
at the places that `bare` chooses, those that are words have no quotes. -/
def toFlow (bare : List Nat → Bool) : Shape → Document → Flow
  | _, .absent => .scalar true "null"
  | _, .text s => .scalar (bare [] && isBareWord s) s
  | _, .count n => .scalar true (toString n)
  | _, .choice name => .scalar (bare [] && isBareWord name) name
  | _, .form name payload => .tagged name (toFlow bare (formShape name) payload)
  | .list item, .list items => .sequence (itemsToFlow bare 0 item items)
  | _, .list items => .sequence (itemsToFlow bare 0 .text items)
  | .table item, .table entries => .mapping (entriesToFlow bare 0 item entries)
  | _, .table entries => .mapping (entriesToFlow bare 0 .text entries)
  | .record r, .record members => .mapping (membersToFlow bare 0 r.members members)
  | _, .record _ => .mapping []

def itemsToFlow (bare : List Nat → Bool) (i : Nat) (item : Shape) : List Document → List Flow
  | [] => []
  | d :: rest =>
    toFlow (fun place => bare (i :: place)) item d :: itemsToFlow bare (i + 1) item rest

def entriesToFlow (bare : List Nat → Bool) (i : Nat) (item : Shape) :
    List (String × Document) → List (String × Flow)
  | [] => []
  | (key, d) :: rest =>
    (key, toFlow (fun place => bare (i :: place)) item d) :: entriesToFlow bare (i + 1) item rest

def membersToFlow (bare : List Nat → Bool) (i : Nat) :
    List Member → List Document → List (String × Flow)
  | m :: members, d :: rest =>
    if m.omits d then membersToFlow bare (i + 1) members rest
    else (m.name, toFlow (fun place => bare (i :: place)) m.shape d) ::
      membersToFlow bare (i + 1) members rest
  | _, _ => []

end

mutual

/-- Whether a document has nothing but strings of printable ASCII, and short keys in its tables. -/
def isPlain : Document → Bool
  | .absent => true
  | .text s => s.toList.all isPrintable
  | .count _ => false
  | .choice _ => true
  | .form _ payload => payload.isPlain
  | .list items => arePlain items
  | .table entries => arePlainEntries entries
  | .record members => arePlain members

def arePlain : List Document → Bool
  | [] => true
  | d :: rest => d.isPlain && arePlain rest

def arePlainEntries : List (String × Document) → Bool
  | [] => true
  | (key, d) :: rest => isShortKey key && d.isPlain && arePlainEntries rest

end

theorem arePlain_iff {items : List Document} :
    arePlain items = true ↔ ∀ d ∈ items, d.isPlain = true := by
  induction items with
  | nil => simp [arePlain]
  | cons d rest ih => simp [arePlain, ih]

theorem arePlainEntries_iff {entries : List (String × Document)} :
    arePlainEntries entries = true ↔
      ∀ e ∈ entries, isShortKey e.1 = true ∧ e.2.isPlain = true := by
  induction entries with
  | nil => simp [arePlainEntries]
  | cons e rest ih =>
    obtain ⟨key, d⟩ := e
    simp [arePlainEntries, ih]

variable {bare : List Nat → Bool} {item : Shape}

theorem exists_of_mem_itemsToFlow {items : List Document} {i : Nat} {f : Flow}
    (h : f ∈ itemsToFlow bare i item items) :
    ∃ chosen, ∃ d ∈ items, f = toFlow chosen item d := by
  induction items generalizing i with
  | nil => cases h
  | cons d rest ih =>
    rcases List.mem_cons.mp h with rfl | h
    · exact ⟨_, d, by simp, rfl⟩
    · obtain ⟨chosen, e, he, hf⟩ := ih h
      exact ⟨chosen, e, by simp [he], hf⟩

theorem exists_of_mem_entriesToFlow {entries : List (String × Document)} {i : Nat}
    {e : String × Flow} (h : e ∈ entriesToFlow bare i item entries) :
    ∃ chosen, ∃ d ∈ entries, e = (d.1, toFlow chosen item d.2) := by
  induction entries generalizing i with
  | nil => cases h
  | cons d rest ih =>
    rcases List.mem_cons.mp h with rfl | h
    · exact ⟨_, d, by simp, rfl⟩
    · obtain ⟨chosen, c, hc, he⟩ := ih h
      exact ⟨chosen, c, by simp [hc], he⟩

theorem exists_of_mem_membersToFlow {members : List Member} {documents : List Document} {i : Nat}
    {e : String × Flow} (h : e ∈ membersToFlow bare i members documents) :
    ∃ chosen, ∃ p ∈ written members documents, e = (p.1.name, toFlow chosen p.1.shape p.2) := by
  induction members generalizing documents i with
  | nil => cases documents <;> cases h
  | cons m members ih =>
    cases documents with
    | nil => cases h
    | cons d documents =>
      rw [membersToFlow] at h
      cases homits : m.omits d with
      | true =>
        rw [if_pos homits] at h
        obtain ⟨chosen, p, hp, he⟩ := ih h
        exact ⟨chosen, p, by simpa [written, homits] using hp, he⟩
      | false =>
        rw [if_neg (by simp [homits])] at h
        have hwritten : written (m :: members) (d :: documents) =
            (m, d) :: written members documents := by
          simp [written, homits]
        rw [hwritten]
        rcases List.mem_cons.mp h with rfl | h
        · exact ⟨_, (m, d), by simp, rfl⟩
        · obtain ⟨chosen, p, hp, he⟩ := ih h
          exact ⟨chosen, p, by simp [hp], he⟩

end Document

open Document

theorem Choice.printable (c : Choice) :
    ∀ name ∈ c.variants, name.toList.all isPrintable = true := by
  cases c <;> decide

theorem Record.isShortKey_name (r : Record) : ∀ m ∈ r.members, isShortKey m.name = true := by
  cases r <;> decide

/-- An optional member is no free text, which could be taken for a null. -/
theorem Record.optional_shape (r : Record) : ∀ m ∈ r.members, m.isOptional = true →
    m.shape = .choice .typeKind ∨ m.shape = .list .text ∨ m.shape = .record .typeRef := by
  cases r <;> decide

theorem fine_scalar {s : String} (h : s.toList.all isPrintable = true) (bare : Bool) :
    Fine (.scalar (bare && isBareWord s) s) := by
  cases hbare : bare && isBareWord s with
  | false => exact .quoted h
  | true =>
    rw [Bool.and_eq_true] at hbare
    exact .bare hbare.2

/-- Only an annotation value is tagged. -/
theorem isTagged_toFlow {shape : Shape} {d : Document} (h : Conforms shape d)
    (hshape : shape ≠ .value) (bare : List Nat → Bool) :
    (toFlow bare shape d).isTagged = false := by
  cases h with
  | form => exact absurd rfl hshape
  | _ => rfl

theorem form_ne_value {name : String} {payload : Shape}
    (h : valueForms.lookup name = some payload) : payload ≠ .value := by
  rcases AnnotationValue.forms_cases h with ⟨_, rfl⟩ | ⟨_, rfl⟩ | ⟨_, rfl⟩ <;>
    exact Shape.noConfusion

/-- Both readers understand the flow of a plain document. -/
theorem fine_toFlow {shape : Shape} {d : Document} (h : Conforms shape d)
    (hplain : d.isPlain = true) (bare : List Nat → Bool) : Fine (toFlow bare shape d) := by
  induction h generalizing bare with
  | text s => exact fine_scalar hplain _
  | count => cases hplain
  | choice hname => exact fine_scalar (Choice.printable _ _ hname) _
  | @names names _ =>
    rw [ofNames, isPlain, arePlain_iff] at hplain
    refine .sequence fun f hf => ?_
    obtain ⟨chosen, d, hd, rfl⟩ := exists_of_mem_itemsToFlow hf
    obtain ⟨s, _, rfl⟩ := List.mem_map.mp hd
    exact fine_scalar (hplain _ hd) _
  | @list item items _ ih =>
    rw [isPlain, arePlain_iff] at hplain
    refine .sequence fun f hf => ?_
    obtain ⟨chosen, d, hd, rfl⟩ := exists_of_mem_itemsToFlow hf
    exact ih d hd (hplain d hd) chosen
  | @table item entries _ _ ih =>
    rw [isPlain, arePlainEntries_iff] at hplain
    refine .mapping (fun e he => ?_) fun e he => ?_
    all_goals obtain ⟨chosen, d, hd, rfl⟩ := exists_of_mem_entriesToFlow he
    · exact (hplain d hd).1
    · exact ih d hd (hplain d hd).2 chosen
  | @form name payload d hname h ih =>
    rw [toFlow, formShape_eq hname]
    refine .tagged ?_ (isTagged_toFlow h (form_ne_value hname) bare) (ih hplain bare)
    rcases AnnotationValue.forms_cases hname with ⟨rfl, _⟩ | ⟨rfl, _⟩ | ⟨rfl, _⟩ <;> decide
  | @record r members _ habsent _ ih =>
    rw [isPlain, arePlain_iff] at hplain
    refine .mapping (fun e he => ?_) fun e he => ?_
    all_goals obtain ⟨chosen, p, hp, rfl⟩ := exists_of_mem_membersToFlow he
    · exact r.isShortKey_name _ (List.of_mem_zip (ne_absent_of_written habsent hp).1).1
    · obtain ⟨hmem, hne⟩ := ne_absent_of_written habsent hp
      exact ih p hmem hne (hplain _ (List.of_mem_zip hmem).2) chosen

namespace Yaml.Flow

open Json (Value)

mutual

/-- The JSON value of a flow, with an object of one entry for each tag. -/
def value : Flow → Value
  | .scalar _ s => .text s
  | .sequence items => .array (itemValues items)
  | .mapping entries => .object (entryValues entries)
  | .tagged name content => .object [(name, content.value)]

def itemValues : List Flow → List Value
  | [] => []
  | f :: rest => f.value :: itemValues rest

def entryValues : List (String × Flow) → List (String × Value)
  | [] => []
  | (key, f) :: rest => (key, f.value) :: entryValues rest

end

end Yaml.Flow

open Yaml.Flow (itemValues entryValues)

theorem itemValues_toFlow {item : Shape} {items : List Document}
    (h : ∀ d ∈ items, ∀ bare, (toFlow bare item d).value = toJson item d) (bare : List Nat → Bool)
    (i : Nat) : itemValues (itemsToFlow bare i item items) = itemsToJson item items := by
  induction items generalizing i with
  | nil => rfl
  | cons d rest ih =>
    rw [itemsToFlow, itemValues, itemsToJson, h d (by simp), ih fun e he => h e (by simp [he])]

theorem entryValues_toFlow {item : Shape} {entries : List (String × Document)}
    (h : ∀ e ∈ entries, ∀ bare, (toFlow bare item e.2).value = toJson item e.2)
    (bare : List Nat → Bool) (i : Nat) :
    entryValues (entriesToFlow bare i item entries) = entriesToJson item entries := by
  induction entries generalizing i with
  | nil => rfl
  | cons e rest ih =>
    obtain ⟨key, d⟩ := e
    rw [entriesToFlow, entryValues, entriesToJson, h (key, d) (by simp),
      ih fun e he => h e (by simp [he])]

theorem memberValues_toFlow {members : List Member} {documents : List Document}
    (h : ∀ p ∈ written members documents, ∀ bare,
      (toFlow bare p.1.shape p.2).value = toJson p.1.shape p.2) (bare : List Nat → Bool) (i : Nat) :
    entryValues (membersToFlow bare i members documents) = membersToJson members documents := by
  induction members generalizing documents i with
  | nil => cases documents <;> rfl
  | cons m members ih =>
    cases documents with
    | nil => rfl
    | cons d documents =>
      cases homits : m.omits d with
      | true =>
        have hrest := @ih documents (fun p hp => h p (by simpa [written, homits] using hp)) (i + 1)
        rw [membersToFlow, membersToJson, if_pos homits, if_pos homits, hrest]
      | false =>
        have hd := h (m, d) (by simp [written, homits])
        have hrest := @ih documents
          (fun p hp => h p (by simpa [written, homits] using Or.inr hp)) (i + 1)
        rw [membersToFlow, membersToJson, if_neg (by simp [homits]), if_neg (by simp [homits]),
          entryValues, hd, hrest]

/-- The flow of a plain document says what its JSON value does. -/
theorem value_toFlow {shape : Shape} {d : Document} (h : Conforms shape d)
    (hplain : d.isPlain = true) (bare : List Nat → Bool) :
    (toFlow bare shape d).value = toJson shape d := by
  induction h generalizing bare with
  | text s => rfl
  | count => cases hplain
  | choice => rfl
  | @names names _ =>
    refine congrArg Json.Value.array (itemValues_toFlow (fun d hd bare => ?_) bare 0)
    obtain ⟨s, _, rfl⟩ := List.mem_map.mp hd
    rfl
  | @list item items _ ih =>
    rw [isPlain, arePlain_iff] at hplain
    exact congrArg Json.Value.array (itemValues_toFlow (fun d hd => ih d hd (hplain d hd)) bare 0)
  | @table item entries _ _ ih =>
    rw [isPlain, arePlainEntries_iff] at hplain
    exact congrArg Json.Value.object
      (entryValues_toFlow (fun e he => ih e he (hplain e he).2) bare 0)
  | @form name payload d hname h ih =>
    rw [toFlow, toJson, formShape_eq hname, Yaml.Flow.value, ih hplain bare]
  | @record r members _ habsent _ ih =>
    rw [isPlain, arePlain_iff] at hplain
    refine congrArg Json.Value.object (memberValues_toFlow (fun p hp => ?_) bare 0)
    obtain ⟨hmem, hne⟩ := ne_absent_of_written habsent hp
    exact ih p hmem hne (hplain _ (List.of_mem_zip hmem).2)

example : (toFlow (fun _ => true) .value
    (AnnotationValue.toDocument (.list [.typeRef ⟨"null", "", none, []⟩, .literal "1.50"]))).text =
      "!list [!type_ref \x7b\"name\": null, \"qualified_name\": \"\"\x7d, !literal 1.50]".toList := by
  decide

end ClassFacts
