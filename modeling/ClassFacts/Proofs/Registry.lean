import ClassFacts.Proofs.Keyed
import ClassFacts.Registry

namespace ClassFacts.Registry

attribute [ext] Registry

theorem place_of_not_mem {c : ClassDecl} {classes : List ClassDecl}
    (h : c.qualifiedName ∉ classes.map ClassDecl.qualifiedName) :
    place c classes = classes ++ [c] := by
  induction classes with
  | nil => rfl
  | cons d rest ih =>
    simp only [List.map_cons, List.mem_cons, not_or] at h
    simp [place, Ne.symm h.1, ih h.2]

theorem mem_place {c d : ClassDecl} {classes : List ClassDecl} (h : d ∈ place c classes) :
    d = c ∨ d ∈ classes := by
  induction classes with
  | nil => exact .inl (List.mem_singleton.mp h)
  | cons e rest ih =>
    rw [place] at h
    split at h
    · rcases List.mem_cons.mp h with rfl | h
      · exact .inl rfl
      · exact .inr (List.mem_cons_of_mem e h)
    · rcases List.mem_cons.mp h with rfl | h
      · exact .inr List.mem_cons_self
      · rcases ih h with rfl | h
        · exact .inl rfl
        · exact .inr (List.mem_cons_of_mem e h)

/-- The events on the way do not matter to what is added. -/
theorem insertAll_result (r : Registry) (classes : List ClassDecl) :
    (r.insertAll classes).result = classes.foldl add r := by
  have hfold : ∀ log : Logged Registry,
      (classes.foldl (fun log c => log.bind fun r => r.insert c) log).result =
        classes.foldl add log.result := by
    induction classes with
    | nil => exact fun _ => rfl
    | cons c rest ih => exact fun log => ih (log.bind fun r => r.insert c)
  exact hfold (.quiet r)

theorem foldl_add_classes {r : Registry} {classes : List ClassDecl}
    (h : ((r.classes ++ classes).map ClassDecl.qualifiedName).Nodup) :
    (classes.foldl add r).classes = r.classes ++ classes := by
  induction classes generalizing r with
  | nil => simp
  | cons c rest ih =>
    have hnew : c.qualifiedName ∉ r.classes.map ClassDecl.qualifiedName := by
      rw [List.map_append] at h
      exact not_mem_of_nodup_append h
    have hadd : (r.add c).classes = r.classes ++ [c] := place_of_not_mem hnew
    rw [List.foldl_cons, ih (by rw [hadd]; simpa using h), hadd]
    simp

/-- Classes with distinct names are all kept, in their order. -/
theorem classes_ofClasses {classes : List ClassDecl}
    (h : (classes.map ClassDecl.qualifiedName).Nodup) : (ofClasses classes).classes = classes := by
  rw [ofClasses, insertAll_result, foldl_add_classes (by simpa [empty] using h)]
  rfl

theorem ofClasses_classes (r : Registry) : ofClasses r.classes = r :=
  Registry.ext (classes_ofClasses r.distinct)

theorem mem_of_mem_ofClasses {c : ClassDecl} {classes : List ClassDecl}
    (h : c ∈ (ofClasses classes).classes) : c ∈ classes := by
  have hfold : ∀ r : Registry,
      c ∈ (classes.foldl add r).classes → c ∈ r.classes ∨ c ∈ classes := by
    clear h
    induction classes with
    | nil => exact fun r h => .inl h
    | cons d rest ih =>
      intro r h
      rcases ih (r.add d) h with h | h
      · rcases mem_place h with rfl | h
        · exact .inr List.mem_cons_self
        · exact .inl h
      · exact .inr (List.mem_cons_of_mem d h)
  rw [ofClasses, insertAll_result] at h
  rcases hfold empty h with h | h
  · cases h
  · exact h

theorem find?_place (c : ClassDecl) (classes : List ClassDecl) (q : String) :
    (place c classes).find? (·.qualifiedName == q) =
      if c.qualifiedName = q then some c else classes.find? (·.qualifiedName == q) := by
  induction classes with
  | nil => by_cases h : c.qualifiedName = q <;> simp [place, h]
  | cons d rest ih =>
    rw [place]
    by_cases hd : d.qualifiedName = c.qualifiedName
    · by_cases hq : c.qualifiedName = q
      · simp [hd, hq]
      · simp [hd, hq]
    · rw [if_neg hd, List.find?_cons, ih, List.find?_cons]
      by_cases hdq : d.qualifiedName = q
      · have hq : c.qualifiedName ≠ q := fun he => hd (hdq.trans he.symm)
        simp [hdq, hq]
      · simp [beq_false_of_ne hdq]

theorem find?_add (r : Registry) (c : ClassDecl) (q : String) :
    (r.add c).find? q = if c.qualifiedName = q then some c else r.find? q :=
  find?_place c r.classes q

theorem find?_isSome_iff {r : Registry} {q : String} :
    (r.find? q).isSome ↔ q ∈ r.classes.map ClassDecl.qualifiedName := by
  simp [find?, List.find?_isSome]

theorem find?_eq_some_iff {r : Registry} {q : String} {c : ClassDecl} :
    r.find? q = some c ↔ c ∈ r.classes ∧ c.qualifiedName = q := by
  constructor
  · intro h
    exact ⟨List.mem_of_find?_eq_some h, by simpa using List.find?_some h⟩
  · rintro ⟨hmem, rfl⟩
    exact find?_of_nodup r.distinct hmem

theorem resolve?_eq_some_iff {r : Registry} {t : TypeRef} {c : ClassDecl} :
    r.resolve? t = some c ↔ c ∈ r.classes ∧ c.qualifiedName = t.qualified :=
  find?_eq_some_iff

/-- A class under its qualified name. -/
def entry (c : ClassDecl) : String × ClassDecl :=
  (c.qualifiedName, c)

def entries (r : Registry) : List (String × ClassDecl) :=
  r.classes.map entry

theorem get?_map_entry (q : String) (classes : List ClassDecl) :
    Entries.get? q (classes.map entry) = classes.find? (·.qualifiedName == q) := by
  induction classes with
  | nil => rfl
  | cons c rest ih => by_cases h : c.qualifiedName = q <;> simp [entry, Entries.get?, h, ih]

theorem map_entry_place (c : ClassDecl) (classes : List ClassDecl) :
    (place c classes).map entry = Entries.put c.qualifiedName c (classes.map entry) := by
  induction classes with
  | nil => rfl
  | cons d rest ih =>
    by_cases h : d.qualifiedName = c.qualifiedName <;> simp [place, entry, Entries.put, h, ih]

theorem get?_entries (r : Registry) (q : String) : Entries.get? q r.entries = r.find? q :=
  get?_map_entry q r.classes

theorem entries_add (r : Registry) (c : ClassDecl) :
    (r.add c).entries = Entries.put c.qualifiedName c r.entries :=
  map_entry_place c r.classes

/-- Whatever is added, a class is kept under its own name and under no other. -/
theorem entries_insertAll (r : Registry) (added : List ClassDecl) :
    (r.insertAll added).result.entries =
      added.foldl (fun found c => Entries.put c.qualifiedName c found) r.entries := by
  rw [insertAll_result]
  induction added generalizing r with
  | nil => rfl
  | cons c rest ih => rw [List.foldl_cons, ih, entries_add, List.foldl_cons]

end ClassFacts.Registry
