import ClassFacts.Proofs.Hierarchy.Ceiling
import ClassFacts.Proofs.Hierarchy.Nested
import ClassFacts.Proofs.Registry

namespace ClassFacts

theorem TypeRef.qualified_of_ne {t : TypeRef} (h : t.qualifiedName ≠ "") :
    t.qualified = t.qualifiedName :=
  if_neg h

/-- A class with a qualified name is what that name refers to. What else a reference says does
not matter. -/
theorem Registry.resolve?_of_mem {r : Registry} {c : ClassDecl} {t : TypeRef} (hmem : c ∈ r.classes)
    (hname : c.qualifiedName ≠ "") (ht : t.qualifiedName = c.qualifiedName) :
    r.resolve? t = some c := by
  have hqualified : t.qualified = t.qualifiedName := TypeRef.qualified_of_ne (ht ▸ hname)
  exact resolve?_eq_some_iff.mpr ⟨hmem, (hqualified.trans ht).symm⟩

namespace Hierarchy

variable {config : Config} {classes : Registry}

theorem parent?_of_asType {s c : ClassDecl} (hmem : c ∈ classes.classes)
    (hname : c.qualifiedName ≠ "") (hs : s.superclass = some c.asType) :
    parent? classes s = some c := by
  rw [parent?, hs]
  exact Registry.resolve?_of_mem hmem hname rfl

/-- A registry keeps each class under its own name, whatever has been added to it. So a reference
leads to a class of the name that it gives, the reference to a class leads back to the class, and
what extends a class puts its own fields around the fields of that class. -/
theorem references_agree_with_registry (config : Config) (r : Registry) :
    (∀ added : List ClassDecl, (r.insertAll added).result.entries =
      added.foldl (fun found c => Entries.put c.qualifiedName c found) r.entries) ∧
    (∀ q, r.find? q = Entries.get? q r.entries) ∧
    (∀ t c, r.resolve? t = some c → c.qualifiedName = t.qualified ∧ c ∈ r.classes) ∧
    (∀ c ∈ r.classes, c.qualifiedName ≠ "" → ∀ name kind arguments,
      r.resolve? { c.asType with name := name, kind := kind, arguments := arguments } = some c) ∧
    (∀ s, ∀ c ∈ r.classes, ∀ depth ≤ config.maxHierarchyDepth, c.qualifiedName ≠ "" →
      config.isOpaqueTerminator s.name = false → s.superclass = some c.asType →
      (collectFrom config r (some s) depth).result =
        (collectFrom config r (some c) (depth + 1)).result.map fun inherited =>
          accessorFields config s ++ inherited ++ s.fields) := by
  refine ⟨r.entries_insertAll, fun q => (r.get?_entries q).symm, ?_, ?_, ?_⟩
  · intro t c h
    exact (Registry.resolve?_eq_some_iff.mp h).symm
  · intro c hmem hname name kind arguments
    exact Registry.resolve?_of_mem hmem hname rfl
  · intro s c hmem depth hdepth hname hopen hs
    rw [collectFrom_succ hopen hdepth, parent?_of_asType hmem hname hs, synthesizedFields_eq]

/-- A class with a field and a type argument. -/
def identified : ClassDecl :=
  { ClassDecl.ofQualified "x.Identified" .classType with
    fields := [.declared "id" (.ofQualified "long")]
    typeArguments := [.ofQualified "T"] }

/-- What extends that class has a field of its own and another one behind an accessor. -/
def person : ClassDecl :=
  { ClassDecl.ofQualified "x.Person" .interface with
    fields := [.declared "age" (.ofQualified "int")]
    methods := [.plain "getName" (.ofQualified "java.lang.String")]
    superclass := some identified.asType }

/-- Under the ceiling fields are inherited, and at the ceiling it is the superclass that is too
deep. -/
theorem references_agree_with_registry_person :
    (Registry.ofClasses [identified]).resolve? ⟨"Renamed", "x.Identified", none, []⟩ = some identified ∧
      (collectFrom shallow (.ofClasses [identified]) (some person) 0).result =
        .ok (accessorFields shallow person ++ identified.fields ++ person.fields) ∧
      (collectFrom shallow (.ofClasses [identified]) (some person) 3).result =
        .error ⟨"x.Identified", 4⟩ := by
  obtain ⟨-, -, -, hresolve, hcollect⟩ :=
    references_agree_with_registry shallow (.ofClasses [identified])
  have hmem : identified ∈ (Registry.ofClasses [identified]).classes := List.mem_cons_self
  have hchain : Chain shallow (.ofClasses [identified]) (some identified) [identified] :=
    .step (by decide) .absent
  refine ⟨hresolve identified hmem (by decide) "Renamed" none [], ?_, ?_⟩
  · rw [hcollect person identified hmem 0 (by decide) (by decide) (by decide) rfl,
      collectFrom_of_chain hchain (by decide)]
    rfl
  · rw [hcollect person identified hmem 3 (by decide) (by decide) (by decide) rfl]
    rfl

end Hierarchy

end ClassFacts
