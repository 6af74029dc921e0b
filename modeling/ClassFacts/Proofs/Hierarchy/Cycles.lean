import ClassFacts.Proofs.Hierarchy.Ceiling
import Mathlib.Data.Fintype.Pigeonhole

namespace ClassFacts.Hierarchy

/-- A hierarchy that neither comes to a terminator nor lacks a superclass anywhere. -/
def Endless (config : Config) (classes : Registry) (c : Option ClassDecl) : Prop :=
  ∀ chain, ¬ Chain config classes c chain

/-- The class at a level is the entry of the registry at a place. -/
def StandsAt (classes : Registry) (c : Option ClassDecl) (level place : Nat) : Prop :=
  ∃ d, classAt classes c level = some d ∧ classes.classes[place]? = some d

/-- A hierarchy that holds an entry of the registry at two levels. The class at its foot is not
looked at: it need not be registered. -/
def Revisits (config : Config) (classes : Registry) (c : Option ClassDecl) : Prop :=
  ∃ i j place, 1 ≤ i ∧ i < j ∧ Climbs config classes c j ∧
    StandsAt classes c i place ∧ StandsAt classes c j place

variable {config : Config} {classes : Registry}

theorem Chain.not_climbs {c : Option ClassDecl} {chain : List ClassDecl}
    (h : Chain config classes c chain) : ¬ Climbs config classes c chain.length := by
  induction h with
  | absent => exact climbs_none 0
  | terminator hterm =>
    intro hc
    rw [List.length_nil, climbs_zero, hterm] at hc
    cases hc
  | step _ _ ih => exact fun hc => ih (climbs_succ.mp hc).2

theorem endless_iff {c : Option ClassDecl} :
    Endless config classes c ↔ ∀ top, Climbs config classes c top := by
  constructor
  · intro h top
    by_contra hn
    obtain ⟨chain, hchain, _⟩ := ancestors_of_not_climbs 0 hn
    exact h chain hchain
  · exact fun h chain hchain => hchain.not_climbs (h _)

/-- Only the foot of a hierarchy may be missing from the registry. -/
theorem exists_standsAt {c : Option ClassDecl} {level : Nat} {d : ClassDecl}
    (h : classAt classes c (level + 1) = some d) :
    ∃ place, place < classes.size ∧ StandsAt classes c (level + 1) place := by
  obtain ⟨below, _, habove⟩ := Option.bind_eq_some_iff.mp h
  obtain ⟨superclass, _, hresolve⟩ := Option.bind_eq_some_iff.mp habove
  obtain ⟨place, hplace⟩ := List.mem_iff_getElem?.mp (List.mem_of_find?_eq_some hresolve)
  obtain ⟨hlt, _⟩ := List.getElem?_eq_some_iff.mp hplace
  exact ⟨place, hlt, d, h, hplace⟩

/-- A hierarchy with more levels than the registry has entries comes to one of them twice. -/
theorem revisits_of_climbs {c : Option ClassDecl} {top : Nat}
    (h : Climbs config classes c top) (hroom : classes.size < top) :
    Revisits config classes c := by
  have hplace : ∀ level : Fin top,
      ∃ place : Fin classes.size, StandsAt classes c (level + 1) place := by
    intro level
    obtain ⟨d, hd, _⟩ := h (level + 1) level.isLt
    obtain ⟨place, hlt, hstands⟩ := exists_standsAt hd
    exact ⟨⟨place, hlt⟩, hstands⟩
  choose place hstands using hplace
  obtain ⟨i, j, hne, hsame⟩ :=
    Fintype.exists_ne_map_eq_of_card_lt place (by simpa using hroom)
  have revisit : ∀ i j : Fin top, i < j → place i = place j → Revisits config classes c := by
    intro i j hlt hsame
    have hj := hstands j
    rw [← hsame] at hj
    exact ⟨i + 1, j + 1, place i, by omega, by omega,
      fun level hlevel => h level (by omega), hstands i, hj⟩
  rcases lt_or_gt_of_ne hne with hlt | hgt
  · exact revisit i j hlt hsame
  · exact revisit j i hgt hsame.symm

/-- An entry that comes twice comes again and again. -/
theorem climbs_of_revisits {c : Option ClassDecl} (h : Revisits config classes c) (top : Nat) :
    Climbs config classes c top := by
  obtain ⟨i, j, place, _, hlt, hclimbs, ⟨d, hd, hplace⟩, e, he, hplace'⟩ := h
  obtain rfl : d = e := Option.some.inj (hplace.symm.trans hplace')
  obtain ⟨period, rfl⟩ := Nat.exists_eq_add_of_lt hlt
  have hround : classAt classes c (i + (period + 1)) = classAt classes c i := he.trans hd.symm
  refine climbs_of_cycle period.succ_pos hround ?_ top
  exact fun level hlevel => hclimbs level (by omega)

theorem endless_iff_revisits {c : Option ClassDecl} :
    Endless config classes c ↔ Revisits config classes c := by
  rw [endless_iff]
  constructor
  · exact fun h => revisits_of_climbs (h (classes.size + 1)) (Nat.lt_succ_self _)
  · exact climbs_of_revisits

/-- With a ceiling no lower than the number of classes, collecting fails exactly on a hierarchy
without an end, which is one that comes to an entry of the registry twice; any other is
flattened. -/
theorem collect_fails_iff_endless (config : Config) (classes : Registry) (c : ClassDecl)
    (hroom : classes.size ≤ config.maxHierarchyDepth) :
    ((∃ fault, (collect config classes c).result = .error fault) ↔
      Endless config classes (some c)) ∧
    (Endless config classes (some c) ↔ Revisits config classes (some c)) ∧
    (¬ Revisits config classes (some c) → ∃ chain, Chain config classes (some c) chain ∧
      (collect config classes c).result = .ok (flatten config chain)) := by
  have hlevel : ceilingLevel config 0 = config.maxHierarchyDepth + 1 := ceilingLevel_eq config 0
  have hclimbs : Climbs config classes (some c) (ceilingLevel config 0) ↔
      Revisits config classes (some c) := by
    constructor
    · exact fun h => revisits_of_climbs h (by omega)
    · exact fun h => climbs_of_revisits h _
  refine ⟨?_, endless_iff_revisits, ?_⟩
  · rw [endless_iff_revisits, ← hclimbs]
    exact collectFrom_error_iff
  · intro hn
    obtain ⟨chain, hchain, _, hok⟩ := collectFrom_of_not_climbs fun h => hn (hclimbs.mp h)
    exact ⟨chain, hchain, hok⟩

/-- A class that is not registered, below two that extend each other, and as many levels as
there is room for. -/
theorem collect_fails_iff_endless_looped :
    looped.size ≤ shallow.maxHierarchyDepth ∧
      Revisits shallow looped (some (extending "x.Z" "x.A")) ∧
      ∃ fault, (collect shallow looped (extending "x.Z" "x.A")).result = .error fault := by
  have hroom : looped.size ≤ shallow.maxHierarchyDepth := by decide
  obtain ⟨hfails, hendless, _⟩ :=
    collect_fails_iff_endless shallow looped (extending "x.Z" "x.A") hroom
  have hclimbs : Climbs shallow looped (some (extending "x.Z" "x.A")) 4 := by
    rintro (_ | _ | _ | _ | _ | level) hlevel
    · exact ⟨_, rfl, by decide⟩
    · exact ⟨_, rfl, by decide⟩
    · exact ⟨_, rfl, by decide⟩
    · exact ⟨_, rfl, by decide⟩
    · exact ⟨_, rfl, by decide⟩
    · omega
  have htwo : classAt looped (some (extending "x.Z" "x.A")) 2 = some (extending "x.B" "x.C") := by
    cbv
  have hfour : classAt looped (some (extending "x.Z" "x.A")) 4 = some (extending "x.B" "x.C") := by
    cbv
  have hentry : looped.classes[1]? = some (extending "x.B" "x.C") := by cbv
  have hrevisits : Revisits shallow looped (some (extending "x.Z" "x.A")) :=
    ⟨2, 4, 1, by omega, by omega, hclimbs, ⟨_, htwo, hentry⟩, _, hfour, hentry⟩
  exact ⟨hroom, hrevisits, hfails.mpr (hendless.mpr hrevisits)⟩

end ClassFacts.Hierarchy
