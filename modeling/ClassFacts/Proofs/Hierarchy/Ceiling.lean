import ClassFacts.Proofs.Hierarchy.Walk

namespace ClassFacts.Hierarchy

/-- The level above a class at the given depth at which the ceiling is passed. -/
def ceilingLevel (config : Config) (depth : Nat) : Nat :=
  if config.maxHierarchyDepth < depth then 0 else config.maxHierarchyDepth + 1 - depth

variable {config : Config} {classes : Registry}

theorem ceilingLevel_eq (config : Config) (depth : Nat) :
    ceilingLevel config depth = config.maxHierarchyDepth + 1 - depth := by
  unfold ceilingLevel
  split <;> omega

theorem collectFrom_of_climbs {c : Option ClassDecl} {depth : Nat}
    (h : Climbs config classes c (ceilingLevel config depth)) :
    ∃ d, classAt classes c (ceilingLevel config depth) = some d ∧
      (collectFrom config classes c depth).result =
        .error ⟨d.qualifiedName, max depth (config.maxHierarchyDepth + 1)⟩ := by
  rw [ceilingLevel_eq] at h ⊢
  obtain ⟨d, hd, he⟩ := ancestors_of_climbs depth h
  refine ⟨d, hd, ?_⟩
  rw [collectFrom_result, he,
    show max depth (config.maxHierarchyDepth + 1) =
      depth + (config.maxHierarchyDepth + 1 - depth) by omega]
  rfl

theorem collectFrom_of_not_climbs {c : Option ClassDecl} {depth : Nat}
    (h : ¬ Climbs config classes c (ceilingLevel config depth)) :
    ∃ chain, Chain config classes c chain ∧ chain.length ≤ ceilingLevel config depth ∧
      (collectFrom config classes c depth).result = .ok (flatten config chain) := by
  obtain ⟨chain, hchain, hok⟩ := ancestors_of_not_climbs depth (ceilingLevel_eq config depth ▸ h)
  refine ⟨chain, hchain, hchain.length_le h, ?_⟩
  rw [collectFrom_result, hok]
  rfl

/-- What is collected is a chain that is no longer than the ceiling allows, flattened. -/
theorem exists_chain_of_ok {c : Option ClassDecl} {depth : Nat} {fields : List Field}
    (h : (collectFrom config classes c depth).result = .ok fields) :
    ∃ chain, Chain config classes c chain ∧ chain.length ≤ ceilingLevel config depth ∧
      fields = flatten config chain := by
  have hn : ¬ Climbs config classes c (ceilingLevel config depth) := by
    intro hclimbs
    obtain ⟨d, _, he⟩ := collectFrom_of_climbs hclimbs
    cases he.symm.trans h
  obtain ⟨chain, hchain, hlength, hok⟩ := collectFrom_of_not_climbs hn
  exact ⟨chain, hchain, hlength, Except.ok.inj (h.symm.trans hok)⟩

theorem collectFrom_error_iff {c : Option ClassDecl} {depth : Nat} :
    (∃ fault, (collectFrom config classes c depth).result = .error fault) ↔
      Climbs config classes c (ceilingLevel config depth) := by
  constructor
  · rintro ⟨fault, he⟩
    rcases Classical.em (Climbs config classes c (ceilingLevel config depth)) with h | hn
    · exact h
    · obtain ⟨chain, _, _, hok⟩ := collectFrom_of_not_climbs hn
      cases he.symm.trans hok
  · intro h
    obtain ⟨d, _, he⟩ := collectFrom_of_climbs h
    exact ⟨_, he⟩

/-- Collecting fails exactly if every class up to the level of the ceiling is there and none of
them ends the hierarchy; then it names the class at that level and the depth there. Otherwise it
flattens the chain of ancestors. So it fails where the levels come round to a class again, and a
hierarchy may still end at the level of the ceiling. -/
theorem collectFrom_fails_exactly_at_ceiling (config : Config) (classes : Registry) (c : ClassDecl)
    (depth : Nat) :
    ((∃ fault, (collectFrom config classes (some c) depth).result = .error fault) ↔
      Climbs config classes (some c) (ceilingLevel config depth)) ∧
    (∀ fault, (collectFrom config classes (some c) depth).result = .error fault →
      ∃ d, classAt classes (some c) (ceilingLevel config depth) = some d ∧
        fault = ⟨d.qualifiedName, max depth (config.maxHierarchyDepth + 1)⟩) ∧
    (¬ Climbs config classes (some c) (ceilingLevel config depth) →
      ∃ chain, Chain config classes (some c) chain ∧ chain.length ≤ ceilingLevel config depth ∧
        (collectFrom config classes (some c) depth).result = .ok (flatten config chain)) ∧
    (∀ start period, 0 < period →
      classAt classes (some c) (start + period) = classAt classes (some c) start →
      (∀ level < start + period, ∃ d, classAt classes (some c) level = some d ∧
        config.isOpaqueTerminator d.name = false) →
      ∃ fault, (collectFrom config classes (some c) depth).result = .error fault) ∧
    (∀ d, classAt classes (some c) (ceilingLevel config depth) = some d →
      config.isOpaqueTerminator d.name = true →
      ∃ fields, (collectFrom config classes (some c) depth).result = .ok fields) := by
  refine ⟨collectFrom_error_iff, ?_, collectFrom_of_not_climbs, ?_, ?_⟩
  · intro fault hf
    obtain ⟨d, hd, he⟩ := collectFrom_of_climbs (collectFrom_error_iff.mp ⟨fault, hf⟩)
    exact ⟨d, hd, Except.error.inj (hf.symm.trans he)⟩
  · intro start period positive round h
    exact collectFrom_error_iff.mpr (climbs_of_cycle positive round h _)
  · intro d hd hterm
    have hn : ¬ Climbs config classes (some c) (ceilingLevel config depth) := by
      intro h
      obtain ⟨e, he, hopen⟩ := h _ (Nat.le_refl _)
      rw [Option.some.inj (he.symm.trans hd), hterm] at hopen
      cases hopen
    obtain ⟨chain, _, _, hok⟩ := collectFrom_of_not_climbs hn
    exact ⟨_, hok⟩

/-- An empty class that extends another. -/
def extending (qualified superclass : String) : ClassDecl :=
  { ClassDecl.ofQualified qualified .classType with superclass := some (.ofQualified superclass) }

/-- A class below two that extend each other. -/
def looped : Registry :=
  .ofClasses [extending "x.A" "x.B", extending "x.B" "x.C", extending "x.C" "x.B"]

def shallow : Config :=
  { Config.standard with maxHierarchyDepth := 3 }

/-- Which class stands at the ceiling depends on where the loop is entered. -/
theorem collectFrom_looped :
    (collectFrom shallow looped (some (extending "x.A" "x.B")) 0).result =
      .error ⟨"x.C", 4⟩ := by
  have h := collectFrom_fails_exactly_at_ceiling shallow looped (extending "x.A" "x.B") 0
  have hloop : ∀ level < 1 + 2, ∃ d, classAt looped (some (extending "x.A" "x.B")) level = some d ∧
      shallow.isOpaqueTerminator d.name = false := by
    rintro (_ | _ | _ | level) hlevel
    · exact ⟨_, rfl, by decide⟩
    · exact ⟨_, rfl, by decide⟩
    · exact ⟨_, rfl, by decide⟩
    · omega
  obtain ⟨fault, hf⟩ := h.2.2.2.1 1 2 (by omega) (by cbv) hloop
  obtain ⟨d, hd, rfl⟩ := h.2.1 fault hf
  have htop : classAt looped (some (extending "x.A" "x.B")) 4 = some (extending "x.C" "x.B") := by
    cbv
  obtain rfl : d = extending "x.C" "x.B" := Option.some.inj (hd.symm.trans htop)
  exact hf

end ClassFacts.Hierarchy
