import ClassFacts.Hierarchy
import ClassFacts.Proofs.Types.Canonical

namespace ClassFacts

namespace Config

/-- A name that has a bracket of its own, or no white space at its end. -/
def Erasable (name : String) : Prop :=
  '<' ∈ name.toList ∨ ∀ c ∈ name.toList.getLast?, Text.isBlank c = false

theorem eraseGenericsChars_opened {name : List Char} (h : '<' ∉ name) (rest : List Char) :
    eraseGenericsChars (name ++ '<' :: rest) = Text.trimEnd name := by
  have hmem : '<' ∈ name ++ '<' :: rest := by simp
  rw [eraseGenericsChars, if_pos hmem, (Text.until_append h _).1,
    List.takeWhile_cons_of_neg (by simp), List.append_nil]

/-- Only the first bracket counts. -/
theorem eraseGenericsChars_append {name : List Char} (h : '<' ∈ name) (rest : List Char) :
    eraseGenericsChars (name ++ rest) = eraseGenericsChars name := by
  obtain ⟨before, after, rfl, hbefore⟩ := List.eq_append_cons_of_mem h
  rw [List.append_assoc, List.cons_append, eraseGenericsChars_opened hbefore,
    eraseGenericsChars_opened hbefore]

/-- The arguments of a reference are erased again, unless white space stood before them. -/
theorem eraseGenerics_canonicalName_iff {t : TypeRef} :
    eraseGenerics t.canonicalName = eraseGenerics t.qualified ↔
      t.arguments = [] ∨ Erasable t.qualified := by
  rw [eraseGenerics, eraseGenerics, String.ofList_inj, TypeRef.canonicalName_toList, Erasable]
  by_cases hopen : '<' ∈ t.qualified.toList
  · simp [eraseGenericsChars_append hopen, hopen]
  · cases t.arguments with
    | nil => simp [TypeRef.bracketed]
    | cons a more =>
      rw [TypeRef.bracketed, eraseGenericsChars_opened hopen, eraseGenericsChars, if_neg hopen,
        Text.trimEnd_eq_self_iff]
      simp [hopen]

example : Config.standard.isMap "java.util.Map " = false ∧
    Config.standard.isMap "java.util.Map <K>" = true := by decide

end Config

namespace Hierarchy

variable {config : Config}

/-- What a class derives from its accessors hangs on its kind, its methods and the tables, which
know its name without type arguments only. -/
theorem synthesizedFields_congr {c d : ClassDecl} (hkind : c.kind = d.kind)
    (hmethods : c.methods = d.methods)
    (hname : Config.eraseGenerics c.qualifiedName = Config.eraseGenerics d.qualifiedName) :
    synthesizedFields config c = synthesizedFields config d := by
  unfold synthesizedFields ClassDecl.isInterface Config.isCollection Config.isMap
  rw [hkind, hmethods, hname]

/-- The tables of collections and maps know a type with arguments as the type without them. So an
interface has the same derived fields under the canonical name of a reference as under the
qualified one. -/
theorem synthesizedFields_canonicalName (config : Config) (t : TypeRef)
    (h : Config.Erasable t.qualified) :
    config.isCollection t.canonicalName = config.isCollection t.qualified ∧
      config.isMap t.canonicalName = config.isMap t.qualified ∧
      ∀ c d : ClassDecl, c.kind = d.kind → c.methods = d.methods →
        c.qualifiedName = t.canonicalName → d.qualifiedName = t.qualified →
        synthesizedFields config c = synthesizedFields config d := by
  have hname : Config.eraseGenerics t.canonicalName = Config.eraseGenerics t.qualified :=
    Config.eraseGenerics_canonicalName_iff.mpr (.inr h)
  refine ⟨?_, ?_, ?_⟩
  · rw [Config.isCollection, Config.isCollection, hname]
  · rw [Config.isMap, Config.isMap, hname]
  · intro c d hkind hmethods hcanonical hqualified
    refine synthesizedFields_congr hkind hmethods ?_
    rw [hcanonical, hqualified, hname]

/-- A map whose name has arguments and white space of its own. -/
def spacedMap : TypeRef :=
  ⟨"Map", "java.util.Map\u2003 <K> ", none,
    [⟨"<", "", none, []⟩, ⟨"List", "java.util.List ", none, [⟨"", "", none, []⟩]⟩]⟩

/-- An interface with an accessor. -/
def keySource (qualified : String) : ClassDecl :=
  { ClassDecl.ofQualified qualified .interface with
    methods := [.plain "getKeys" (.ofQualified "K")] }

/-- The first bracket of the name is where both names are cut. -/
theorem synthesizedFields_canonicalName_map :
    Config.Erasable spacedMap.qualified ∧
      Config.standard.isMap spacedMap.canonicalName = true ∧
      synthesizedFields Config.standard (keySource spacedMap.canonicalName) =
        synthesizedFields Config.standard (keySource spacedMap.qualified) := by
  have herasable : Config.Erasable spacedMap.qualified := .inl (by decide)
  obtain ⟨-, hmap, hfields⟩ := synthesizedFields_canonicalName .standard spacedMap herasable
  have hknown : Config.standard.isMap spacedMap.qualified = true := by decide
  exact ⟨herasable, hmap.trans hknown, hfields _ _ rfl rfl rfl rfl⟩

end Hierarchy

end ClassFacts
