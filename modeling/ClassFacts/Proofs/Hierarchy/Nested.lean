import ClassFacts.Proofs.Hierarchy.Walk
import ClassFacts.Proofs.Names

namespace ClassFacts.Hierarchy

/-- The field behind an accessor, if a method is one. -/
def accessorField? (m : Method) : Option Field :=
  if m.name.toList.take 3 = ['g', 'e', 't'] ∧ 3 < m.name.length then
    some ⟨Names.lowerFirst (String.ofList (m.name.toList.drop 3)), m.returns, .synthesized⟩
  else none

/-- The fields that a class derives from its accessors. -/
def accessorFields (config : Config) (c : ClassDecl) : List Field :=
  if c.kind = .interface ∧ ¬ config.isCollection c.qualifiedName ∧ ¬ config.isMap c.qualifiedName
  then c.methods.filterMap accessorField?
  else []

/-- The fields of a class by recursion on its ancestors: its derived ones, those of the class
above at one depth more, its declared ones. -/
def nestedFields (config : Config) (classes : Registry) :
    Option ClassDecl → Nat → Except TooDeep (List Field)
  | none, _ => .ok []
  | some c, depth =>
    if config.isOpaqueTerminator c.name then .ok []
    else if config.maxHierarchyDepth < depth then .error ⟨c.qualifiedName, depth⟩
    else
      (nestedFields config classes (c.superclass.bind classes.resolve?) (depth + 1)).map
        fun inherited => accessorFields config c ++ inherited ++ c.fields
termination_by _ depth => config.maxHierarchyDepth + 1 - depth

variable {config : Config} {classes : Registry}

theorem accessorField?_eq_some_iff {m : Method} {f : Field} :
    accessorField? m = some f ↔
      ∃ rest, rest ≠ "" ∧ m.name = "get" ++ rest ∧
        f = .synthesized (Names.lowerFirst rest) m.returns := by
  constructor
  · intro h
    unfold accessorField? at h
    split at h
    next hget =>
      refine ⟨String.ofList (m.name.toList.drop 3), ?_, ?_, (Option.some.inj h).symm⟩
      · intro he
        have hlength := congrArg List.length (congrArg String.toList he)
        have hlong : 3 < m.name.toList.length := hget.2
        simp only [String.toList_ofList, List.length_drop, String.toList_empty,
          List.length_nil] at hlength
        omega
      · apply String.toList_inj.mp
        calc m.name.toList = m.name.toList.take 3 ++ m.name.toList.drop 3 :=
              (List.take_append_drop 3 _).symm
          _ = ("get" ++ String.ofList (m.name.toList.drop 3)).toList := by
              rw [hget.1]
              simp
    next => cases h
  · rintro ⟨rest, hne, hname, rfl⟩
    have hlong : 0 < rest.length := Nat.pos_of_ne_zero fun h => hne (String.length_eq_zero_iff.mp h)
    have hlength : 3 < m.name.length := by
      rw [hname, String.length_append, show "get".length = 3 from rfl]
      omega
    rw [accessorField?, if_pos ⟨by simp [hname], hlength⟩]
    simp [hname, Field.synthesized]

theorem accessorField?_eq (m : Method) :
    accessorField? m =
      (Names.accessorProperty? m.name).map fun name => .synthesized name m.returns := by
  apply Option.ext
  intro f
  rw [accessorField?_eq_some_iff, Option.map_eq_some_iff]
  constructor
  · rintro ⟨rest, hne, hname, rfl⟩
    exact ⟨_, Names.accessorProperty?_eq_some_iff.mpr ⟨rest, hne, hname, rfl⟩, rfl⟩
  · rintro ⟨property, hp, rfl⟩
    obtain ⟨rest, hne, hname, rfl⟩ := Names.accessorProperty?_eq_some_iff.mp hp
    exact ⟨rest, hne, hname, rfl⟩

theorem synthesizedFields_eq (c : ClassDecl) :
    synthesizedFields config c = accessorFields config c := by
  have hfun : (fun m : Method => (Names.accessorProperty? m.name).map fun name =>
      Field.synthesized name m.returns) = accessorField? :=
    funext fun m => (accessorField?_eq m).symm
  unfold synthesizedFields accessorFields
  rw [hfun]
  by_cases hk : c.kind = .interface <;>
    cases hl : config.isCollection c.qualifiedName <;>
      cases hm : config.isMap c.qualifiedName <;> simp [ClassDecl.isInterface, hk]

/-- Flattening the chain of ancestors nests them, whatever is left of the levels. -/
theorem ancestors_flatten (levels depth : Nat) (c : Option ClassDecl)
    (h : levels = config.maxHierarchyDepth + 1 - depth) :
    (ancestors config classes levels depth c).result.map (flatten config) =
      nestedFields config classes c depth := by
  induction levels generalizing depth c with
  | zero =>
    cases c with
    | none => rw [ancestors_none, nestedFields]; rfl
    | some c =>
      rw [nestedFields]
      cases hterm : config.isOpaqueTerminator c.name with
      | true => rw [ancestors_terminator 0 depth hterm]; rfl
      | false =>
        rw [ancestors_zero depth hterm, if_neg (by simp), if_pos (by omega)]
        rfl
  | succ levels ih =>
    cases c with
    | none => rw [ancestors_none, nestedFields]; rfl
    | some c =>
      rw [nestedFields]
      cases hterm : config.isOpaqueTerminator c.name with
      | true => rw [ancestors_terminator _ depth hterm]; rfl
      | false =>
        rw [ancestors_succ levels depth hterm, if_neg (by simp), if_neg (by omega)]
        have hh := ih (depth + 1) (parent? classes c) (by omega)
        rw [← show parent? classes c = c.superclass.bind classes.resolve? from rfl, ← hh]
        cases (ancestors config classes levels (depth + 1) (parent? classes c)).result with
        | error fault => rfl
        | ok chain => simp [Except.map, flatten_cons, synthesizedFields_eq]

/-- Collecting fields in two passes over a chain of ancestors is the recursion on the ancestors,
whose derived fields are one for each method `get…` in the order of the methods. -/
theorem collectFrom_result_eq_nestedFields (config : Config) (classes : Registry)
    (c : Option ClassDecl) (depth : Nat) :
    (collectFrom config classes c depth).result = nestedFields config classes c depth ∧
      ∀ (m : Method) (f : Field), accessorField? m = some f ↔
        ∃ rest, rest ≠ "" ∧ m.name = "get" ++ rest ∧
          f = .synthesized (Names.lowerFirst rest) m.returns := by
  refine ⟨?_, fun m f => accessorField?_eq_some_iff⟩
  rw [collectFrom_result]
  exact ancestors_flatten _ depth c rfl

end ClassFacts.Hierarchy
