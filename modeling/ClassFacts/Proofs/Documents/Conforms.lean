import ClassFacts.Json.Dump
import ClassFacts.Proofs.Json.Nesting
import ClassFacts.Proofs.Keyed
import Mathlib.Data.List.Forall2

namespace ClassFacts

/-- A document that says something of the given shape. Of a record, an optional member may be
absent. -/
inductive Conforms : Shape → Document → Prop
  | text (s : String) : Conforms .text (.text s)
  | count {n : Nat} : n < Nat.pow 2 64 → Conforms .count (.count n)
  | names {names : List String} : names.Nodup → Conforms .names (.ofNames names)
  | list {item : Shape} {items : List Document} :
      (∀ d ∈ items, Conforms item d) → Conforms (.list item) (.list items)
  | table {item : Shape} {entries : List (String × Document)} :
      (Entries.keys entries).Nodup → (∀ e ∈ entries, Conforms item e.2) →
      Conforms (.table item) (.table entries)
  | choice {c : Choice} {name : String} : name ∈ c.variants → Conforms (.choice c) (.choice name)
  | form {name : String} {payload : Shape} {d : Document} :
      valueForms.lookup name = some payload → Conforms payload d → Conforms .value (.form name d)
  | record {r : Record} {members : List Document} :
      members.length = r.members.length →
      (∀ p ∈ r.members.zip members, p.2 = .absent → p.1.isOptional = true) →
      (∀ p ∈ r.members.zip members, p.2 ≠ .absent → Conforms p.1.shape p.2) →
      Conforms (.record r) (.record members)

theorem Conforms.ne_absent {shape : Shape} {d : Document} (h : Conforms shape d) : d ≠ .absent := by
  cases h <;> exact Document.noConfusion

theorem Conforms.length_members {r : Record} {members : List Document}
    (h : Conforms (.record r) (.record members)) : members.length = r.members.length := by
  cases h with
  | record hlength => exact hlength

/-- What a member of a record may hold. -/
def Member.Holds (m : Member) (d : Document) : Prop :=
  (m.isOptional = true ∧ d = .absent) ∨ Conforms m.shape d

theorem Member.Holds.conforms {m : Member} {d : Document} (h : m.Holds d)
    (hm : m.isOptional = false) : Conforms m.shape d := by
  rcases h with ⟨hoptional, _⟩ | h
  · simp [hm] at hoptional
  · exact h

theorem conforms_record_iff {r : Record} {d : Document} :
    Conforms (.record r) d ↔
      ∃ members, List.Forall₂ Member.Holds r.members members ∧ d = .record members := by
  constructor
  · intro h
    cases h with
    | @record r members hlength habsent h =>
      refine ⟨members, List.forall₂_iff_zip.mpr ⟨hlength.symm, @fun m d hp => ?_⟩, rfl⟩
      rcases Classical.em (d = .absent) with hd | hd
      · exact .inl ⟨habsent _ hp hd, hd⟩
      · exact .inr (h _ hp hd)
  · rintro ⟨members, h, rfl⟩
    obtain ⟨hlength, hzip⟩ := List.forall₂_iff_zip.mp h
    refine .record hlength.symm ?_ ?_
    · rintro ⟨m, d⟩ hp rfl
      rcases hzip hp with ⟨hoptional, _⟩ | h
      · exact hoptional
      · exact absurd rfl h.ne_absent
    · rintro ⟨m, d⟩ hp hne
      rcases hzip hp with ⟨_, hd⟩ | h
      · exact absurd hd hne
      · exact h

theorem Record.names_nodup (r : Record) : (r.members.map Member.name).Nodup := by
  cases r <;> decide

/-- A member is found by its name. -/
theorem Record.member?_of_mem {r : Record} {m : Member} (h : m ∈ r.members) :
    r.member? m.name = some m :=
  find?_of_nodup r.names_nodup h

theorem Record.fallback?_of_omitEmpty (r : Record) :
    ∀ m ∈ r.members, m.omitEmpty = true → m.fallback? = some (.list []) := by
  cases r <;> simp [Record.members, Member.required, Member.optional, Member.assumed,
    Member.several, Member.fallback?]

theorem Member.fallback?_of_isOptional {m : Member} (h : m.isOptional = true) :
    m.fallback? = some .absent := by
  unfold Member.isOptional at h
  unfold Member.fallback?
  cases hp : m.presence with
  | optional => rfl
  | _ => simp [hp] at h

/-- What is left out of a written record is what its member stands for when it is missing. -/
theorem Record.fallback?_of_omits {r : Record} {m : Member} {d : Document} (h : m ∈ r.members)
    (hd : m.omits d = true) : m.fallback? = some d := by
  unfold Member.omits at hd
  split at hd
  next => exact Member.fallback?_of_isOptional hd
  next => exact r.fallback?_of_omitEmpty m h hd
  next => cases hd

theorem formShape_eq {name : String} {payload : Shape} (h : valueForms.lookup name = some payload) :
    formShape name = payload := by
  simp [formShape, h]

namespace Document

theorem itemsToJson_eq (item : Shape) (items : List Document) :
    itemsToJson item items = items.map (toJson item) := by
  induction items with
  | nil => rfl
  | cons d rest ih => simp [itemsToJson, ih]

theorem entriesToJson_eq (item : Shape) (entries : List (String × Document)) :
    entriesToJson item entries = entries.map fun e => (e.1, toJson item e.2) := by
  induction entries with
  | nil => rfl
  | cons e rest ih =>
    obtain ⟨key, d⟩ := e
    simp [entriesToJson, ih]

/-- The members of a record that are written, with what they say. -/
def written (members : List Member) (documents : List Document) : List (Member × Document) :=
  (members.zip documents).filter fun p => !p.1.omits p.2

theorem membersToJson_eq (members : List Member) (documents : List Document) :
    membersToJson members documents =
      (written members documents).map fun p => (p.1.name, toJson p.1.shape p.2) := by
  induction members generalizing documents with
  | nil => cases documents <;> rfl
  | cons m members ih =>
    cases documents with
    | nil => rfl
    | cons d documents =>
      cases hd : m.omits d <;> simp [membersToJson, written, hd, ih]

end Document

end ClassFacts
