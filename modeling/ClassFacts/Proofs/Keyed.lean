import ClassFacts.Keyed
import Mathlib.Data.List.Induction

namespace ClassFacts

theorem not_mem_of_nodup_append {α : Type} {x : α} {before after : List α}
    (h : (before ++ x :: after).Nodup) : x ∉ before := by
  intro hmem
  exact (List.nodup_append.mp h).2.2 x hmem x List.mem_cons_self rfl

/-- What has a key of its own is found by it. -/
theorem find?_of_nodup {α : Type} {key : α → String} {x : α} {xs : List α}
    (hnodup : (xs.map key).Nodup) (h : x ∈ xs) : xs.find? (key · == key x) = some x := by
  induction xs with
  | nil => cases h
  | cons y rest ih =>
    rw [List.map_cons, List.nodup_cons] at hnodup
    rcases List.mem_cons.mp h with rfl | h
    · simp
    · have hne : key y ≠ key x := fun he => hnodup.1 (he ▸ List.mem_map_of_mem h)
      rw [List.find?_cons_of_neg (by simpa using hne)]
      exact ih hnodup.2 h

attribute [ext] NameSet

theorem NameSet.names_foldl_insert {names : List String} {s : NameSet}
    (h : (s.names ++ names).Nodup) : (names.foldl NameSet.insert s).names = s.names ++ names := by
  induction names generalizing s with
  | nil => simp
  | cons name rest ih =>
    have hnew := not_mem_of_nodup_append h
    have hinsert : (s.insert name).names = s.names ++ [name] := by
      simp [NameSet.insert, hnew]
    rw [List.foldl_cons, ih (by rw [hinsert]; simpa using h), hinsert]
    simp

theorem NameSet.names_ofList {names : List String} (h : names.Nodup) :
    (NameSet.ofList names).names = names := by
  unfold NameSet.ofList
  rw [NameSet.names_foldl_insert (by simpa [NameSet.empty] using h)]
  rfl

theorem NameSet.ofList_names (s : NameSet) : NameSet.ofList s.names = s :=
  NameSet.ext (NameSet.names_ofList s.distinct)

variable {α : Type} {key : String} {value : α} {entries : List (String × α)}

theorem lookup_eq_none (h : key ∉ entries.map Prod.fst) : entries.lookup key = none := by
  rw [List.lookup_eq_none_iff]
  intro e he
  rw [bne_iff_ne]
  rintro rfl
  exact h (List.mem_map_of_mem he)

theorem lookup_of_mem (hnodup : (entries.map Prod.fst).Nodup) (hmem : (key, value) ∈ entries) :
    entries.lookup key = some value := by
  induction entries with
  | nil => cases hmem
  | cons e rest ih =>
    obtain ⟨k, v⟩ := e
    rw [List.map_cons, List.nodup_cons] at hnodup
    rcases List.mem_cons.mp hmem with he | hmem
    · cases he
      exact List.lookup_cons_self
    · have hne : key ≠ k := fun he => hnodup.1 (List.mem_map.mpr ⟨(key, value), hmem, he⟩)
      rw [List.lookup_cons, beq_false_of_ne hne]
      exact ih hnodup.2 hmem

theorem mem_of_lookup (h : entries.lookup key = some value) : (key, value) ∈ entries := by
  obtain ⟨before, after, rfl, _⟩ := List.lookup_eq_some_iff.mp h
  simp

theorem Entries.put_of_not_mem (value : α) (h : key ∉ Entries.keys entries) :
    Entries.put key value entries = entries ++ [(key, value)] := by
  induction entries with
  | nil => rfl
  | cons e rest ih =>
    obtain ⟨k, v⟩ := e
    simp only [Entries.keys, List.map_cons, List.mem_cons, not_or] at h
    simp [Entries.put, Ne.symm h.1, ih h.2]

theorem Entries.forall_put {P : α → Prop} (hvalue : P value) (h : ∀ e ∈ entries, P e.2) :
    ∀ e ∈ Entries.put key value entries, P e.2 := by
  induction entries with
  | nil => simpa [Entries.put] using hvalue
  | cons e rest ih =>
    obtain ⟨k, v⟩ := e
    have hrest := ih fun e he => h e (by simp [he])
    rw [Entries.put]
    split
    · intro e he
      rcases List.mem_cons.mp he with rfl | he
      · exact hvalue
      · exact h e (by simp [he])
    · intro e he
      rcases List.mem_cons.mp he with rfl | he
      · exact h _ (by simp)
      · exact hrest e he

/-- Entries with keys of their own, of which each value has a property. -/
def Entries.Each (P : α → Prop) (entries : List (String × α)) : Prop :=
  (Entries.keys entries).Nodup ∧ ∀ e ∈ entries, P e.2

theorem Entries.each_nil (P : α → Prop) : Entries.Each P [] :=
  ⟨List.nodup_nil, by simp⟩

theorem Entries.Each.put {P : α → Prop} (h : Entries.Each P entries) (key : String)
    (hvalue : P value) : Entries.Each P (Entries.put key value entries) :=
  ⟨Entries.nodup_put h.1 key value, Entries.forall_put hvalue h.2⟩

theorem eraseDups_concat (names : List String) (name : String) :
    (names ++ [name]).eraseDups =
      if name ∈ names.eraseDups then names.eraseDups else names.eraseDups ++ [name] := by
  rw [List.eraseDups_append]
  by_cases h : name ∈ names
  · have hold : [name].removeAll names = [] := by
      rw [List.removeAll, List.filter_cons_of_neg (by simpa using h), List.filter_nil]
    simp [hold, h, List.mem_eraseDups]
  · have hnew : [name].removeAll names = [name] := by
      rw [List.removeAll, List.filter_cons_of_pos (by simpa using h), List.filter_nil]
    rw [hnew, if_neg (fun hmem => h (List.mem_eraseDups.mp hmem))]
    rfl

namespace Entries

theorem get?_eq_lookup (key : String) (entries : List (String × α)) :
    get? key entries = entries.lookup key := by
  induction entries with
  | nil => rfl
  | cons e rest ih =>
    obtain ⟨k, v⟩ := e
    rw [get?, List.lookup_cons]
    by_cases h : k = key
    · simp [h]
    · rw [if_neg h, beq_false_of_ne (Ne.symm h), ih]

theorem get?_eq_some_iff (hnodup : (keys entries).Nodup) :
    get? key entries = some value ↔ (key, value) ∈ entries := by
  rw [get?_eq_lookup]
  exact ⟨mem_of_lookup, lookup_of_mem hnodup⟩

theorem get?_put (key other : String) (value : α) (entries : List (String × α)) :
    get? other (put key value entries) = if key = other then some value else get? other entries := by
  induction entries with
  | nil => rfl
  | cons e rest ih =>
    obtain ⟨k, v⟩ := e
    by_cases hk : k = key
    · by_cases hother : key = other <;> simp [put, get?, hk, hother]
    · rw [put, if_neg hk, get?, ih, get?]
      by_cases hother : k = other
      · simp [hother, show key ≠ other from fun h => hk (hother.trans h.symm)]
      · simp [hother]

/-- The one entry of a key. -/
theorem filter_key (h : (keys entries).Nodup) (key : String) :
    entries.filter (·.1 == key) = ((get? key entries).map (key, ·)).toList := by
  induction entries with
  | nil => rfl
  | cons e rest ih =>
    obtain ⟨k, v⟩ := e
    rw [keys, List.map_cons, List.nodup_cons] at h
    by_cases hk : k = key
    · subst hk
      have hrest : rest.filter (·.1 == k) = [] := by
        rw [List.filter_eq_nil_iff]
        intro e he hsame
        exact h.1 (List.mem_map.mpr ⟨e, he, by simpa using hsame⟩)
      simp [get?, hrest]
    · simp [get?, hk, ih h.2]

theorem filter_put (key other : String) (value : α) (entries : List (String × α)) :
    (put key value entries).filter (·.1 == other) =
      if key = other then put key value (entries.filter (·.1 == other))
      else entries.filter (·.1 == other) := by
  induction entries with
  | nil => by_cases h : key = other <;> simp [put, h]
  | cons e rest ih =>
    obtain ⟨k, v⟩ := e
    by_cases hk : k = key
    · by_cases h : key = other <;> simp [put, hk, h]
    · rw [put, if_neg hk, List.filter_cons, List.filter_cons, ih]
      by_cases h : key = other
      · simp [h, show k ≠ other from fun he => hk (he.trans h.symm)]
      · simp [h]

theorem map_put {β : Type} (f : α → β) (key : String) (value : α) (entries : List (String × α)) :
    (put key value entries).map (fun e => (e.1, f e.2)) =
      put key (f value) (entries.map fun e => (e.1, f e.2)) := by
  induction entries with
  | nil => rfl
  | cons e rest ih =>
    obtain ⟨k, v⟩ := e
    by_cases h : k = key
    · simp [put, h]
    · simp [put, h, ih]

variable {ι : Type} (key : ι → String) (value : ι → α)

/-- The entries that some things lead to, put one after the other. -/
def gathered (xs : List ι) : List (String × α) :=
  xs.foldl (fun found x => put (key x) (value x) found) []

theorem gathered_concat (xs : List ι) (x : ι) :
    gathered key value (xs ++ [x]) = put (key x) (value x) (gathered key value xs) := by
  simp [gathered, List.foldl_append]

theorem map_gathered {β : Type} (f : α → β) (xs : List ι) :
    (gathered key value xs).map (fun e => (e.1, f e.2)) =
      gathered key (fun x => f (value x)) xs := by
  induction xs using List.reverseRecOn with
  | nil => rfl
  | append_singleton xs x ih => rw [gathered_concat, map_put, ih, gathered_concat]

/-- Each key stands where it first comes. -/
theorem keys_gathered (xs : List ι) :
    keys (gathered key value xs) = (xs.map key).eraseDups := by
  induction xs using List.reverseRecOn with
  | nil => rfl
  | append_singleton xs x ih =>
    rw [gathered_concat, keys_put, ih, List.map_append, List.map_singleton, eraseDups_concat]

theorem nodup_gathered (xs : List ι) : (keys (gathered key value xs)).Nodup := by
  induction xs using List.reverseRecOn with
  | nil => exact List.nodup_nil
  | append_singleton xs x ih =>
    rw [gathered_concat]
    exact nodup_put ih _ _

theorem each_gathered {P : α → Prop} (xs : List ι) (h : ∀ x ∈ xs, P (value x)) :
    Each P (gathered key value xs) := by
  induction xs using List.reverseRecOn with
  | nil => exact each_nil P
  | append_singleton xs x ih =>
    rw [gathered_concat]
    exact (ih fun y hy => h y (by simp [hy])).put _ (h x (by simp))

/-- The last thing with a key says what its value is. -/
theorem get?_gathered (k : String) (xs : List ι) :
    get? k (gathered key value xs) = (xs.reverse.find? (key · == k)).map value := by
  induction xs using List.reverseRecOn with
  | nil => rfl
  | append_singleton xs x ih =>
    rw [gathered_concat, get?_put, ih, List.reverse_append]
    by_cases h : key x = k <;> simp [h]

theorem find?_of_mem_gathered {xs : List ι} {e : String × α} (h : e ∈ gathered key value xs) :
    (xs.reverse.find? (key · == e.1)).map value = some e.2 := by
  rw [← get?_gathered, get?_eq_lookup]
  exact lookup_of_mem (nodup_gathered key value xs) h

theorem gathered_eq_map {last : String → α} {xs : List ι}
    (hlast : ∀ k x, xs.reverse.find? (key · == k) = some x → last k = value x) :
    gathered key value xs = (xs.map key).eraseDups.map fun k => (k, last k) := by
  have hsame : ∀ e ∈ gathered key value xs, (e.1, last e.1) = e := by
    intro e he
    obtain ⟨x, hx, hvalue⟩ := Option.map_eq_some_iff.mp (find?_of_mem_gathered key value he)
    rw [hlast e.1 x hx, hvalue]
  rw [← keys_gathered key value xs, keys, List.map_map]
  exact ((List.map_congr_left hsame).trans (List.map_id _)).symm

/-- Under each key, where it first comes, stands what the last thing with it says. -/
theorem map_some_gathered (xs : List ι) :
    (gathered key value xs).map some = (xs.map key).eraseDups.map fun k =>
      ((xs.reverse.find? (key · == k)).map value).map (k, ·) := by
  rw [← keys_gathered key value xs, keys, List.map_map]
  refine List.map_congr_left fun e he => ?_
  rw [Function.comp_apply, find?_of_mem_gathered key value he]
  rfl

/-- Things with distinct keys are all kept, in their order. -/
theorem gathered_of_nodup {xs : List ι} (h : (xs.map key).Nodup) :
    gathered key value xs = xs.map fun x => (key x, value x) := by
  induction xs using List.reverseRecOn with
  | nil => rfl
  | append_singleton xs x ih =>
    rw [List.map_append, List.map_singleton] at h
    have hnew : key x ∉ keys (gathered key value xs) := by
      rw [keys_gathered, List.mem_eraseDups]
      exact not_mem_of_nodup_append h
    rw [gathered_concat, put_of_not_mem _ hnew, ih (List.nodup_append.mp h).1, List.map_append,
      List.map_singleton]

/-- Entries with keys of their own are gathered as they are. -/
theorem gathered_self (h : (keys entries).Nodup) :
    gathered Prod.fst Prod.snd entries = entries := by
  rw [gathered_of_nodup _ _ h]
  exact List.map_id entries

/-- To gather what has one key is to look for its entry in all that is gathered. -/
theorem gathered_filter (k : String) (xs : List ι) :
    gathered key value (xs.filter (key · == k)) =
      ((get? k (gathered key value xs)).map (k, ·)).toList := by
  rw [← filter_key (nodup_gathered key value xs) k]
  induction xs using List.reverseRecOn with
  | nil => rfl
  | append_singleton xs x ih =>
    rw [gathered_concat, filter_put, List.filter_append]
    by_cases h : key x = k
    · rw [List.filter_cons_of_pos (by simpa using h), List.filter_nil, gathered_concat, ih, if_pos h]
    · rw [List.filter_cons_of_neg (by simpa using h), List.filter_nil, List.append_nil, ih, if_neg h]

end Entries

attribute [ext] Keyed

theorem Keyed.ofEntries_concat (entries : List (String × α)) (e : String × α) :
    Keyed.ofEntries (entries ++ [e]) = (Keyed.ofEntries entries).put e.1 e.2 := by
  simp [Keyed.ofEntries, List.foldl_append]

theorem Keyed.entries_ofEntries_eq (entries : List (String × α)) :
    (Keyed.ofEntries entries).entries = Entries.gathered Prod.fst Prod.snd entries := by
  induction entries using List.reverseRecOn with
  | nil => rfl
  | append_singleton entries e ih =>
    rw [Keyed.ofEntries_concat, Entries.gathered_concat, ← ih]
    rfl

theorem Keyed.entries_ofEntries (h : (Entries.keys entries).Nodup) :
    (Keyed.ofEntries entries).entries = entries := by
  rw [Keyed.entries_ofEntries_eq, Entries.gathered_self h]

theorem Keyed.ofEntries_entries (m : Keyed α) : Keyed.ofEntries m.entries = m :=
  Keyed.ext (Keyed.entries_ofEntries m.distinct)

end ClassFacts
