import ClassFacts.Proofs.Json.Containers

namespace ClassFacts.Json

mutual

/-- How many containers stand one inside the other at most. -/
def Value.nesting : Value → Nat
  | .array items => itemsNesting items + 1
  | .object entries => entriesNesting entries + 1
  | _ => 0

def itemsNesting : List Value → Nat
  | [] => 0
  | v :: rest => max v.nesting (itemsNesting rest)

def entriesNesting : List (String × Value) → Nat
  | [] => 0
  | (_, v) :: rest => max v.nesting (entriesNesting rest)

end

theorem itemsNesting_le_iff {items : List Value} {n : Nat} :
    itemsNesting items ≤ n ↔ ∀ v ∈ items, v.nesting ≤ n := by
  induction items with
  | nil => simp [itemsNesting]
  | cons v rest ih => rw [itemsNesting, Nat.max_le, ih, List.forall_mem_cons]

theorem entriesNesting_le_iff {entries : List (String × Value)} {n : Nat} :
    entriesNesting entries ≤ n ↔ ∀ e ∈ entries, e.2.nesting ≤ n := by
  induction entries with
  | nil => simp [entriesNesting]
  | cons e rest ih =>
    rw [entriesNesting, Nat.max_le, ih, List.forall_mem_cons]

theorem exists_succ_of_nesting_array {items : List Value} {depth : Nat}
    (h : (Value.array items).nesting ≤ depth) :
    ∃ k, depth = k + 1 ∧ ∀ v ∈ items, v.nesting ≤ k := by
  rw [Value.nesting] at h
  obtain ⟨k, rfl⟩ : ∃ k, depth = k + 1 := ⟨depth - 1, by omega⟩
  exact ⟨k, rfl, itemsNesting_le_iff.mp (by omega)⟩

theorem exists_succ_of_nesting_object {entries : List (String × Value)} {depth : Nat}
    (h : (Value.object entries).nesting ≤ depth) :
    ∃ k, depth = k + 1 ∧ ∀ e ∈ entries, e.2.nesting ≤ k := by
  rw [Value.nesting] at h
  obtain ⟨k, rfl⟩ : ∃ k, depth = k + 1 := ⟨depth - 1, by omega⟩
  exact ⟨k, rfl, entriesNesting_le_iff.mp (by omega)⟩

theorem compactRest_eq (items : List Value) :
    compactRest items = separated false (items.map Value.compactText) := by
  induction items with
  | nil => rfl
  | cons v rest ih => simp [compactRest, separated, ih]

theorem compactItems_eq (items : List Value) :
    compactItems items = separated true (items.map Value.compactText) := by
  cases items with
  | nil => rfl
  | cons v rest => simp [compactItems, separated, compactRest_eq]

theorem compactEntryRest_eq (entries : List (String × Value)) :
    compactEntryRest entries =
      separated false (entries.map fun e => entryText (e.1, e.2.compactText)) := by
  induction entries with
  | nil => rfl
  | cons e rest ih =>
    obtain ⟨key, v⟩ := e
    simp [compactEntryRest, separated, entryText, ih]

theorem compactEntries_eq (entries : List (String × Value)) :
    compactEntries entries =
      separated true (entries.map fun e => entryText (e.1, e.2.compactText)) := by
  cases entries with
  | nil => rfl
  | cons e rest =>
    obtain ⟨key, v⟩ := e
    simp [compactEntries, separated, entryText, compactEntryRest_eq]

theorem array_compactText (items : List Value) :
    (Value.array items).compactText =
      '[' :: (separated true (items.map Value.compactText) ++ [']']) := by
  rw [Value.compactText, compactItems_eq]
  rfl

theorem object_compactText (entries : List (String × Value)) :
    (Value.object entries).compactText = '\x7b' ::
      (separated true (entries.map fun e => entryText (e.1, e.2.compactText)) ++ ['\x7d']) := by
  rw [Value.compactText, compactEntries_eq]
  rfl

end ClassFacts.Json
