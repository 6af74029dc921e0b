import ClassFacts.Proofs.Hierarchy.Ceiling

namespace ClassFacts.Hierarchy

variable {config wider : Config} {classes : Registry}

/-- Where a hierarchy ends does not depend on the ceiling. -/
theorem Chain.withCeiling {c : Option ClassDecl} {chain : List ClassDecl}
    (h : Chain config classes c chain) (ceiling : Nat) :
    Chain { config with maxHierarchyDepth := ceiling } classes c chain := by
  induction h with
  | absent => exact .absent
  | terminator hterm => exact .terminator hterm
  | step hopen _ ih => exact .step hopen ih

theorem collectFrom_withCeiling {c : Option ClassDecl} {depth lower ceiling : Nat}
    {fields : List Field} (hceiling : config.maxHierarchyDepth ≤ ceiling) (hlower : lower ≤ depth)
    (h : (collectFrom config classes c depth).result = .ok fields) :
    (collectFrom { config with maxHierarchyDepth := ceiling } classes c lower).result =
      .ok fields := by
  obtain ⟨chain, hchain, hlength, rfl⟩ := exists_chain_of_ok h
  rw [ceilingLevel_eq] at hlength
  have hroom : chain.length ≤ ceiling + 1 - lower := by omega
  exact collectFrom_of_chain (hchain.withCeiling ceiling) hroom

/-- More terminators cut a chain short. -/
theorem Chain.exists_kept {c : Option ClassDecl} {chain : List ClassDecl}
    (h : Chain config classes c chain)
    (hmore : ∀ name, config.isOpaqueTerminator name = true →
      wider.isOpaqueTerminator name = true) :
    ∃ kept left, chain = kept ++ left ∧ Chain wider classes c kept := by
  induction h with
  | absent => exact ⟨[], [], rfl, .absent⟩
  | terminator hterm => exact ⟨[], [], rfl, .terminator (hmore _ hterm)⟩
  | @step c chain _ _ ih =>
    cases hterm : wider.isOpaqueTerminator c.name with
    | true => exact ⟨[], c :: chain, rfl, .terminator hterm⟩
    | false =>
      obtain ⟨kept, left, rfl, hkept⟩ := ih
      exact ⟨c :: kept, left, rfl, .step hterm hkept⟩

/-- Classes that do not end a hierarchy do not do so with fewer terminators either. -/
theorem Climbs.of_wider {c : Option ClassDecl} {top : Nat} (h : Climbs wider classes c top)
    (hmore : ∀ name, config.isOpaqueTerminator name = true →
      wider.isOpaqueTerminator name = true) :
    Climbs config classes c top := by
  intro level hlevel
  obtain ⟨d, hd, hopen⟩ := h level hlevel
  refine ⟨d, hd, Bool.eq_false_iff.mpr fun hterm => ?_⟩
  rw [hmore d.name hterm] at hopen
  cases hopen

/-- What the upper part of a chain contributes is one block: the fields that the lower part derives
come before it and those that it declares behind it. -/
theorem flatten_append (kept left : List ClassDecl) :
    flatten config (kept ++ left) =
      kept.flatMap (synthesizedFields config) ++ flatten config left ++
        kept.reverse.flatMap ClassDecl.fields := by
  simp [flatten]

section Wider

variable {terminators : NameSet}
  (hmore : ∀ name ∈ config.opaqueTerminators.names, name ∈ terminators.names)

include hmore

theorem isOpaqueTerminator_of_wider (name : String) (h : config.isOpaqueTerminator name = true) :
    Config.isOpaqueTerminator { config with opaqueTerminators := terminators } name = true := by
  have hname : name ∈ config.opaqueTerminators.names := List.contains_iff_mem.mp h
  exact List.contains_iff_mem.mpr (hmore name hname)

theorem collectFrom_cut {c : Option ClassDecl} {depth : Nat} {fields : List Field}
    (h : (collectFrom config classes c depth).result = .ok fields) :
    ∃ before block after, fields = before ++ block ++ after ∧
      (collectFrom { config with opaqueTerminators := terminators } classes c depth).result =
        .ok (before ++ after) := by
  obtain ⟨chain, hchain, hlength, rfl⟩ := exists_chain_of_ok h
  obtain ⟨kept, left, rfl, hkept⟩ := hchain.exists_kept (isOpaqueTerminator_of_wider hmore)
  rw [List.length_append, ceilingLevel_eq] at hlength
  have hroom : kept.length ≤ config.maxHierarchyDepth + 1 - depth := by omega
  exact ⟨_, _, _, flatten_append kept left, collectFrom_of_chain hkept hroom⟩

theorem collectFrom_error_of_wider {c : Option ClassDecl} {depth : Nat} {fault : TooDeep}
    (h : (collectFrom { config with opaqueTerminators := terminators } classes c depth).result =
      .error fault) :
    (collectFrom config classes c depth).result = .error fault := by
  have hwider := collectFrom_error_iff.mp ⟨fault, h⟩
  have hclimbs : Climbs config classes c (ceilingLevel config depth) :=
    hwider.of_wider (isOpaqueTerminator_of_wider hmore)
  obtain ⟨d, hd, he⟩ := collectFrom_of_climbs hwider
  obtain ⟨e, he', hresult⟩ := collectFrom_of_climbs hclimbs
  obtain rfl : d = e := Option.some.inj (hd.symm.trans he')
  exact hresult.trans (he.symm.trans h)

end Wider

/-- A higher ceiling, or a start further below it, changes nothing in what is collected. With more
terminators one block of fields is cut out of it, and what fails then fails likewise without
them. -/
theorem collectFrom_monotone (config : Config) (classes : Registry) (c : Option ClassDecl)
    (depth : Nat) :
    (∀ fields, (collectFrom config classes c depth).result = .ok fields →
      ∀ ceiling lower, config.maxHierarchyDepth ≤ ceiling → lower ≤ depth →
        (collectFrom { config with maxHierarchyDepth := ceiling } classes c lower).result =
          .ok fields) ∧
    ∀ terminators : NameSet,
      (∀ name ∈ config.opaqueTerminators.names, name ∈ terminators.names) →
      (∀ fields, (collectFrom config classes c depth).result = .ok fields →
        ∃ before block after, fields = before ++ block ++ after ∧
          (collectFrom { config with opaqueTerminators := terminators } classes c depth).result =
            .ok (before ++ after)) ∧
      ∀ fault,
        (collectFrom { config with opaqueTerminators := terminators } classes c depth).result =
          .error fault →
        (collectFrom config classes c depth).result = .error fault := by
  refine ⟨?_, ?_⟩
  · intro fields h ceiling lower hceiling hlower
    exact collectFrom_withCeiling hceiling hlower h
  · intro terminators hmore
    exact ⟨fun fields => collectFrom_cut hmore, fun fault => collectFrom_error_of_wider hmore⟩

/-- A class with one field. -/
def entity : ClassDecl :=
  { ClassDecl.ofQualified "x.Entity" .classType with
    fields := [.declared "id" (.ofQualified "long")] }

/-- An interface with an accessor and a constant, below a class. -/
def token : ClassDecl :=
  { extending "x.Token" "x.Entity" with
    kind := .interface
    methods := [.plain "getHolder" (.ofQualified "x.Person")]
    fields := [.declared "PREFIX" (.ofQualified "int")] }

/-- An interface with an accessor and a constant, below another. -/
def card : ClassDecl :=
  { extending "x.Card" "x.Token" with
    kind := .interface
    methods := [.plain "getNumber" (.ofQualified "int")]
    fields := [.declared "LENGTH" (.ofQualified "int")] }

def cards : Registry :=
  .ofClasses [entity, token, card]

theorem chain_card : Chain shallow cards (some card) [card, token, entity] := by
  have hcard : parent? cards card = some token := by cbv
  have htoken : parent? cards token = some entity := by cbv
  have hentity : parent? cards entity = none := rfl
  apply Chain.step (by decide)
  rw [hcard]
  apply Chain.step (by decide)
  rw [htoken]
  apply Chain.step (by decide)
  rw [hentity]
  exact .absent

/-- The names that end a hierarchy, in another order and with one more. -/
def tokensToo : NameSet :=
  .ofList ["Locale", "Date", "Token", "Timestamp", "Object"]

theorem collectFrom_monotone_card :
    (collectFrom { shallow with maxHierarchyDepth := 9 } cards (some card) 0).result =
        .ok (flatten shallow [card, token, entity]) ∧
      (∃ before block after,
        flatten shallow [card, token, entity] = before ++ block ++ after ∧
        (collectFrom { shallow with opaqueTerminators := tokensToo } cards (some card) 1).result =
          .ok (before ++ after)) ∧
      (collectFrom shallow looped (some (extending "x.A" "x.B")) 0).result =
        .error ⟨"x.C", 4⟩ := by
  have hok : (collectFrom shallow cards (some card) 1).result =
      .ok (flatten shallow [card, token, entity]) := collectFrom_of_chain chain_card (by decide)
  have hmore : ∀ name ∈ shallow.opaqueTerminators.names, name ∈ tokensToo.names := by decide
  obtain ⟨hceiling, hterminators⟩ := collectFrom_monotone shallow cards (some card) 1
  obtain ⟨-, hlooped⟩ :=
    collectFrom_monotone shallow looped (some (extending "x.A" "x.B")) 0
  refine ⟨hceiling _ hok 9 0 (by decide) (by decide), (hterminators _ hmore).1 _ hok, ?_⟩
  exact (hlooped _ hmore).2 _ (by cbv)

end ClassFacts.Hierarchy
