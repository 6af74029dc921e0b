import ClassFacts.Proofs.Hierarchy.Ceiling
import ClassFacts.Proofs.Registry

namespace ClassFacts.Hierarchy

/-- A class is visited from so many levels if its superclass reference is followed: it stands on
one of them, and neither it nor a class below it ends the hierarchy. -/
def Visits (config : Config) (classes : Registry) (levels : Nat) (c : Option ClassDecl)
    (d : ClassDecl) : Prop :=
  ∃ level < levels, classAt classes c level = some d ∧ Climbs config classes c level

variable {config : Config} {classes others : Registry}

theorem Visits.above {levels : Nat} {c d : ClassDecl}
    (hopen : config.isOpaqueTerminator c.name = false)
    (h : Visits config classes levels (parent? classes c) d) :
    Visits config classes (levels + 1) (some c) d := by
  obtain ⟨level, hlevel, hd, hclimbs⟩ := h
  exact ⟨level + 1, Nat.succ_lt_succ hlevel, (classAt_succ c level).trans hd,
    climbs_succ.mpr ⟨hopen, hclimbs⟩⟩

end ClassFacts.Hierarchy
