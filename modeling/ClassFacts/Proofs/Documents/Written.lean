import ClassFacts.Proofs.Documents.Spellings

namespace ClassFacts

open Document (toJson)
open Json (Value)

theorem Document.ne_absent_of_written {members : List Member} {documents : List Document}
    (h : ∀ p ∈ members.zip documents, p.2 = .absent → p.1.isOptional = true)
    {p : Member × Document} (hp : p ∈ Document.written members documents) :
    p ∈ members.zip documents ∧ p.2 ≠ .absent := by
  obtain ⟨hmem, homits⟩ := List.mem_filter.mp hp
  refine ⟨hmem, fun habsent => ?_⟩
  have hoptional := h p hmem habsent
  simp [Member.omits, habsent, hoptional] at homits

/-- What a document is dumped as stands for it. -/
theorem spells_toJson {shape : Shape} {d : Document} (h : Conforms shape d) :
    Spells shape d (toJson shape d) := by
  induction h with
  | text s => exact .text s
  | count hn => exact .count hn
  | @names names hnodup =>
    have hjson : toJson .names (.ofNames names) = .array (names.map .text) := by
      refine congrArg Value.array ?_
      rw [Document.itemsToJson_eq, List.map_map]
      rfl
    rw [hjson]
    exact .names hnodup
  | @list item items _ ih =>
    have hspells := @Spells.list item (items.map fun d => (d, toJson item d))
      (by simpa using ih)
    rw [List.map_map, List.map_map] at hspells
    rw [toJson, Document.itemsToJson_eq]
    simpa [Function.comp_def] using hspells
  | @table item entries hnodup _ ih =>
    have hspells := @Spells.table item (entries.map fun e => (e.1, e.2, toJson item e.2))
      (by rw [List.map_map]; exact hnodup) (by
        intro p hp
        obtain ⟨e, he, rfl⟩ := List.mem_map.mp hp
        exact ih e he)
    rw [List.map_map, List.map_map] at hspells
    rw [toJson, Document.entriesToJson_eq]
    simpa [Function.comp_def] using hspells
  | choice hname => exact .name hname
  | form hname _ ih =>
    rw [toJson, formShape_eq hname]
    exact .form hname ih
  | @record r members hlength habsent _ ih =>
    have hspells := @Spells.object r members
      ((Document.written r.members members).map fun p => (p, toJson p.1.shape p.2)) hlength
      (by simp [Function.comp_def]) (by
        intro p hp
        obtain ⟨q, hq, rfl⟩ := List.mem_map.mp hp
        obtain ⟨hmem, hne⟩ := Document.ne_absent_of_written habsent hq
        exact ih q hmem hne)
    rw [toJson, Document.membersToJson_eq]
    simpa [Function.comp_def] using hspells

namespace Json

theorem names_compactText (names : List String) :
    (toJson .names (.ofNames names)).compactText =
      '[' :: (separated true (names.map stringText) ++ [']']) := by
  refine (array_compactText _).trans ?_
  rw [Document.itemsToJson_eq, List.map_map, List.map_map]
  rfl

theorem list_compactText (item : Shape) (items : List Document) :
    (toJson (.list item) (.list items)).compactText =
      '[' :: (separated true (items.map fun d => (toJson item d).compactText) ++ [']']) := by
  refine (array_compactText _).trans ?_
  rw [Document.itemsToJson_eq, List.map_map]
  rfl

theorem table_compactText (item : Shape) (entries : List (String × Document)) :
    (toJson (.table item) (.table entries)).compactText =
      '\x7b' :: (separated true ((entries.map fun e =>
        (e.1, (toJson item e.2).compactText)).map entryText) ++ ['\x7d']) := by
  refine (object_compactText _).trans ?_
  rw [Document.entriesToJson_eq, List.map_map, List.map_map]
  rfl

theorem form_compactText {name : String} {payload : Shape} (d : Document)
    (h : valueForms.lookup name = some payload) :
    (toJson .value (.form name d)).compactText =
      '\x7b' :: (stringText name ++ ':' :: ((toJson payload d).compactText ++ ['\x7d'])) := by
  rw [toJson, object_compactText, formShape_eq h]
  simp [separated, entryText]

theorem record_compactText (r : Record) (members : List Document) :
    (toJson (.record r) (.record members)).compactText =
      '\x7b' :: (separated true (((Document.written r.members members).map fun p =>
        (p.1.name, (toJson p.1.shape p.2).compactText)).map entryText) ++ ['\x7d']) := by
  refine (object_compactText _).trans ?_
  rw [Document.membersToJson_eq, List.map_map, List.map_map]
  rfl

/-- The text of a document does not start as a missing one would. -/
theorem compactText_cons {shape : Shape} {d : Document} (h : Conforms shape d) :
    ∃ c cs, (toJson shape d).compactText = c :: cs ∧
      isSpace c = false ∧ c ≠ ']' ∧ c ≠ '\x7d' ∧ c ≠ 'n' :=
  compactText_cons_of_spells (spells_toJson h)

variable {depth : Nat}

/-- A document is read back from its own text, given depth enough. -/
theorem reads_of_conforms {shape : Shape} {d : Document} (h : Conforms shape d)
    (hdepth : (toJson shape d).nesting ≤ depth) :
    Reads (readShape depth shape) (toJson shape d).compactText d :=
  reads_of_spells (spells_toJson h) hdepth

/-- The entry of a member that has not been read yet is read. -/
theorem readRecordEntry_compactText {r : Record}
    {read : Shape → List Char → Except Fault (Front Document)} {found : List (String × Document)}
    {m : Member} {d : Document} (hm : m ∈ r.members) (h : Conforms m.shape d)
    (hnew : m.name ∉ found.map Prod.fst)
    (hread : Reads (read m.shape) (toJson m.shape d).compactText d) (rest : List Char)
    (hends : Ends rest) :
    readRecordEntry read r found m.name (':' :: ((toJson m.shape d).compactText ++ rest)) =
      .ok ((m.name, d) :: found, rest) :=
  readRecordEntry_reads hm hnew (reads_member (spells_toJson h) hread) rest hends

theorem exists_succ_of_nesting_record {r : Record} {members : List Document}
    (h : Conforms (.record r) (.record members))
    (hdepth : (toJson (.record r) (.record members)).nesting ≤ depth) :
    ∃ k, depth = k + 1 ∧ ∀ p ∈ Document.written r.members members,
      p ∈ r.members.zip members ∧ p.2 ≠ .absent ∧ Conforms p.1.shape p.2 ∧
        (toJson p.1.shape p.2).nesting ≤ k := by
  rw [toJson, Document.membersToJson_eq] at hdepth
  obtain ⟨k, rfl, hmembers⟩ := exists_succ_of_nesting_object hdepth
  cases h with
  | record hlength habsent hconforms =>
  refine ⟨k, rfl, fun p hp => ?_⟩
  obtain ⟨hmem, hne⟩ := Document.ne_absent_of_written habsent hp
  exact ⟨hmem, hne, hconforms p hmem hne, hmembers _ (List.mem_map.mpr ⟨p, hp, rfl⟩)⟩

/-- A record closes with its brace, so that anything may follow. -/
theorem readShape_record_compactText {r : Record} {members : List Document}
    (h : Conforms (.record r) (.record members))
    (hread : ∀ p ∈ Document.written r.members members,
      Reads (readShape depth p.1.shape) (toJson p.1.shape p.2).compactText p.2)
    (rest : List Char) :
    readShape (depth + 1) (.record r) ((toJson (.record r) (.record members)).compactText ++ rest) =
      .ok (.record members, rest) := by
  cases h with
  | record hlength habsent hconforms =>
  have hread := @readShape_object depth r members
    ((Document.written r.members members).map fun p => (p, toJson p.1.shape p.2)) hlength
    (by simp [Function.comp_def]) (by
      intro p hp
      obtain ⟨q, hq, rfl⟩ := List.mem_map.mp hp
      obtain ⟨hmem, hne⟩ := Document.ne_absent_of_written habsent hq
      exact reads_member (spells_toJson (hconforms q hmem hne)) (hread q hq)) rest
  rw [List.map_map] at hread
  rw [toJson, Document.membersToJson_eq]
  exact hread

end Json

end ClassFacts
