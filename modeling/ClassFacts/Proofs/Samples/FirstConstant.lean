import ClassFacts.EnumSample

namespace ClassFacts

namespace Config

variable {config : Config}

theorem kindOf_eq_scalar_iff {t : TypeRef} :
    config.kindOf t = .scalar ↔ t.kind = some .scalar ∨
      t.kind = none ∧ (config.isScalar t.name = true ∨ config.isScalar t.qualified = true) := by
  unfold kindOf
  rw [← Bool.or_eq_true]
  constructor
  · intro h
    split at h
    next kind hkind => exact .inl (hkind.trans (congrArg some h))
    next hkind =>
      split at h
      next hscalar => exact .inr ⟨hkind, hscalar⟩
      next =>
        split at h
        next => cases h
        next => split at h <;> cases h
  · rintro (hkind | ⟨hkind, hscalar⟩)
    · simp only [hkind]
    · simp only [hkind, if_pos hscalar]

variable {scalars : NameSet} (hmore : ∀ name ∈ config.scalarTypes.names, name ∈ scalars.names)

include hmore

theorem isScalar_of_wider {name : String} (h : config.isScalar name = true) :
    isScalar { config with scalarTypes := scalars } name = true := by
  obtain ⟨scalar, hscalar, hsame⟩ := List.any_eq_true.mp h
  exact List.any_eq_true.mpr ⟨scalar, hmore scalar hscalar, hsame⟩

/-- A type that is scalar stays so when there are more names of scalars. -/
theorem kindOf_of_wider {t : TypeRef} (h : config.kindOf t = .scalar) :
    kindOf { config with scalarTypes := scalars } t = .scalar := by
  rcases kindOf_eq_scalar_iff.mp h with hkind | ⟨hkind, hname⟩
  · exact kindOf_eq_scalar_iff.mpr (.inl hkind)
  · have hwider := hname.imp (isScalar_of_wider hmore) (isScalar_of_wider hmore)
    exact kindOf_eq_scalar_iff.mpr (.inr ⟨hkind, hwider⟩)

end Config

namespace EnumSample

variable {config : Config} {annotated nameOnly : Bool}

/-- Some method of a class carries an annotation. -/
def HasAnnotated (c : ClassDecl) : Prop :=
  ∃ m ∈ c.methods, m.annotations ≠ []

theorem hasAnnotatedMethod_iff {c : ClassDecl} :
    hasAnnotatedMethod c = true ↔ HasAnnotated c := by
  simp [hasAnnotatedMethod, HasAnnotated]

theorem ofConstant_eq_none_iff {k : EnumConstant} :
    ofConstant config annotated k = none ↔ config.kindOf k.type = .scalar := by
  unfold ofConstant
  constructor
  · intro h
    split at h
    next hkind => exact hkind
    next => split at h <;> cases h
  · exact fun hkind => if_pos hkind

theorem ofConstant_eq_argument_iff {k : EnumConstant} {x : String} :
    ofConstant config annotated k = some (.argument x) ↔
      config.kindOf k.type ≠ .scalar ∧ annotated = true ∧
        ∃ more, k.arguments = some (x :: more) := by
  unfold ofConstant
  constructor
  · intro h
    split at h
    next => cases h
    next hkind =>
      split at h
      next first more harguments =>
        cases h
        exact ⟨hkind, rfl, more, harguments⟩
      next => cases h
  · rintro ⟨hkind, rfl, more, harguments⟩
    rw [if_neg hkind, harguments]

/-- What is not an argument is the name of the constant. -/
theorem eq_constantName_of_ofConstant {k : EnumConstant} {sample : SampleValue}
    (h : ofConstant config annotated k = some sample) (hne : ∀ x, sample ≠ .argument x) :
    sample = .constantName k.name := by
  unfold ofConstant at h
  split at h
  next => cases h
  next =>
    split at h
    next first _ _ => exact absurd (Option.some.inj h).symm (hne first)
    next => exact (Option.some.inj h).symm

theorem ofConstant_of_wider {scalars : NameSet}
    (hmore : ∀ name ∈ config.scalarTypes.names, name ∈ scalars.names) (k : EnumConstant) :
    ofConstant { config with scalarTypes := scalars } annotated k = none ∨
      ofConstant { config with scalarTypes := scalars } annotated k =
        ofConstant config annotated k := by
  by_cases hwider : Config.kindOf { config with scalarTypes := scalars } k.type = .scalar
  · exact .inl (ofConstant_eq_none_iff.mpr hwider)
  · have hkind : config.kindOf k.type ≠ .scalar := fun h => hwider (Config.kindOf_of_wider hmore h)
    unfold ofConstant
    rw [if_neg hwider, if_neg hkind]
    exact .inr rfl

/-- Behind the first position the constants are only passed. -/
theorem visit_later {position : Nat} (h : 0 < position) (found : Option SampleValue)
    (constants : List EnumConstant) :
    visit config annotated false position found constants = ⟨found, [.sampleResolved]⟩ := by
  induction constants generalizing position with
  | nil => rfl
  | cons k rest ih =>
    rw [visit, if_neg Bool.false_ne_true, if_pos h]
    exact ih (Nat.succ_pos position)

theorem resolve_nil {c : ClassDecl} (h : c.enumConstants = []) :
    resolve config c nameOnly = ⟨none, [.sampleResolved]⟩ := by
  rw [resolve, h, visit]

theorem resolve_name {c : ClassDecl} {k : EnumConstant} (h : c.enumConstants.head? = some k) :
    resolve config c true = ⟨some (.constantName k.name), []⟩ := by
  obtain ⟨rest, hconstants⟩ := List.head?_eq_some_iff.mp h
  rw [resolve, hconstants, visit, if_pos rfl]

theorem resolve_first {c : ClassDecl} {k : EnumConstant} (h : c.enumConstants.head? = some k) :
    resolve config c false =
      ⟨ofConstant config (hasAnnotatedMethod c) k, [.sampleResolved]⟩ := by
  obtain ⟨rest, hconstants⟩ := List.head?_eq_some_iff.mp h
  rw [resolve, hconstants, visit, if_neg Bool.false_ne_true, if_neg (Nat.lt_irrefl 0),
    visit_later Nat.zero_lt_one, Option.or_none]

theorem resolve_congr {c d : ClassDecl} (hfirst : c.enumConstants.head? = d.enumConstants.head?)
    (hannotated : HasAnnotated c ↔ HasAnnotated d) :
    resolve config c nameOnly = resolve config d nameOnly := by
  have hsame : hasAnnotatedMethod c = hasAnnotatedMethod d := by
    rw [Bool.eq_iff_iff, hasAnnotatedMethod_iff, hasAnnotatedMethod_iff, hannotated]
  cases hc : c.enumConstants.head? with
  | none =>
    have hd := hfirst.symm.trans hc
    rw [resolve_nil (List.head?_eq_none_iff.mp hc), resolve_nil (List.head?_eq_none_iff.mp hd)]
  | some k =>
    have hd := hfirst.symm.trans hc
    cases nameOnly with
    | true => rw [resolve_name hc, resolve_name hd]
    | false => rw [resolve_first hc, resolve_first hd, hsame]

section

variable {c : ClassDecl} {k : EnumConstant} (hfirst : c.enumConstants.head? = some k)

include hfirst

theorem exists_sample_iff :
    (∃ sample, (resolve config c nameOnly).result = some sample) ↔
      nameOnly = true ∨ config.kindOf k.type ≠ .scalar := by
  cases nameOnly with
  | true => simp [resolve_name hfirst]
  | false =>
    rw [resolve_first hfirst, ← Option.isSome_iff_exists, ← Option.ne_none_iff_isSome, Ne,
      ofConstant_eq_none_iff]
    simp

theorem resolve_eq_argument_iff {x : String} :
    (resolve config c nameOnly).result = some (.argument x) ↔
      nameOnly = false ∧ config.kindOf k.type ≠ .scalar ∧ HasAnnotated c ∧
        ∃ more, k.arguments = some (x :: more) := by
  cases nameOnly with
  | true => simp [resolve_name hfirst]
  | false =>
    rw [resolve_first hfirst, ofConstant_eq_argument_iff, hasAnnotatedMethod_iff]
    simp

theorem eq_constantName_of_resolve {sample : SampleValue}
    (h : (resolve config c nameOnly).result = some sample) (hne : ∀ x, sample ≠ .argument x) :
    sample = .constantName k.name := by
  cases nameOnly with
  | true =>
    rw [resolve_name hfirst] at h
    exact (Option.some.inj h).symm
  | false =>
    rw [resolve_first hfirst] at h
    exact eq_constantName_of_ofConstant h hne

end

theorem resolve_of_wider {scalars : NameSet}
    (hmore : ∀ name ∈ config.scalarTypes.names, name ∈ scalars.names) (c : ClassDecl) :
    (resolve { config with scalarTypes := scalars } c nameOnly).result = none ∨
      (resolve { config with scalarTypes := scalars } c nameOnly).result =
        (resolve config c nameOnly).result := by
  cases hfirst : c.enumConstants.head? with
  | none =>
    rw [resolve_nil (List.head?_eq_none_iff.mp hfirst)]
    exact .inl rfl
  | some k =>
    cases nameOnly with
    | true =>
      rw [resolve_name hfirst, resolve_name hfirst]
      exact .inr rfl
    | false =>
      rw [resolve_first hfirst, resolve_first hfirst]
      exact ofConstant_of_wider hmore k

/-- The sample of an enum is told by its first constant and by whether some method is annotated. If
only names are wanted, it is the name of that constant. Otherwise there is none if the type of the
constant is a scalar, and it is the first argument of the constant if there is one and some method is
annotated, and else its name. More names of scalars may take a sample away, but turn none into
another. -/
theorem resolve_by_first_constant (config : Config) (nameOnly : Bool) :
    (∀ c d : ClassDecl, c.enumConstants.head? = d.enumConstants.head? →
      (HasAnnotated c ↔ HasAnnotated d) →
      resolve config c nameOnly = resolve config d nameOnly) ∧
    (∀ c : ClassDecl, c.enumConstants = [] → (resolve config c nameOnly).result = none) ∧
    (∀ (c : ClassDecl) (k : EnumConstant), c.enumConstants.head? = some k →
      ((∃ sample, (resolve config c nameOnly).result = some sample) ↔
        nameOnly = true ∨ config.kindOf k.type ≠ .scalar) ∧
      (∀ x, (resolve config c nameOnly).result = some (.argument x) ↔
        nameOnly = false ∧ config.kindOf k.type ≠ .scalar ∧ HasAnnotated c ∧
          ∃ more, k.arguments = some (x :: more)) ∧
      ∀ sample, (resolve config c nameOnly).result = some sample →
        (∀ x, sample ≠ .argument x) → sample = .constantName k.name) ∧
    ∀ scalars : NameSet, (∀ name ∈ config.scalarTypes.names, name ∈ scalars.names) →
      ∀ c : ClassDecl,
        (resolve { config with scalarTypes := scalars } c nameOnly).result = none ∨
        (resolve { config with scalarTypes := scalars } c nameOnly).result =
          (resolve config c nameOnly).result := by
  refine ⟨fun c d => resolve_congr, fun c h => by rw [resolve_nil h], ?_,
    fun scalars hmore => resolve_of_wider hmore⟩
  intro c k hfirst
  exact ⟨exists_sample_iff hfirst, fun x => resolve_eq_argument_iff hfirst,
    fun sample => eq_constantName_of_resolve hfirst⟩

/-- A table in which few types are scalar. -/
def sparse : Config :=
  ⟨.ofList ["int"], .empty, .empty, .empty, .empty, "Valid", "value", "groups", 1⟩

def coded : Method :=
  ⟨"getCode", .ofQualified "int", [.ofType (.ofQualified "x.JsonValue")], []⟩

def low : EnumConstant :=
  ⟨"LOW", .ofQualified "x.Grade", some ["1", "true"]⟩

/-- An enum with a constant of a scalar type behind the first one. -/
def grade : ClassDecl :=
  { ClassDecl.ofQualified "x.Grade" .enum with
    methods := [.plain "getName" (.ofQualified "int"), coded]
    enumConstants := [low, ⟨"HIGH", .ofQualified "Int", some ["9"]⟩] }

/-- Another class with the same first constant. -/
def mark : ClassDecl :=
  { ClassDecl.ofQualified "y.Mark" .classType with
    methods := [coded]
    enumConstants := [low, low, ⟨"NONE", .ofQualified "x.Grade", none⟩] }

theorem resolve_by_first_constant_grade :
    resolve sparse grade false = resolve sparse mark false ∧
      (resolve sparse grade false).result = some (.argument "1") ∧
      ((resolve { sparse with scalarTypes := .ofList ["GRADE", "int"] } grade false).result = none ∨
        (resolve { sparse with scalarTypes := .ofList ["GRADE", "int"] } grade false).result =
          (resolve sparse grade false).result) := by
  obtain ⟨hsame, -, hfirst, hwider⟩ := resolve_by_first_constant sparse false
  have hgrade : HasAnnotated grade := hasAnnotatedMethod_iff.mp (by decide)
  have hmark : HasAnnotated mark := hasAnnotatedMethod_iff.mp (by decide)
  have hkind : sparse.kindOf low.type ≠ .scalar := by decide
  refine ⟨hsame grade mark rfl (iff_of_true hgrade hmark), ?_, hwider _ (by decide) grade⟩
  exact ((hfirst grade low rfl).2.1 "1").mpr ⟨rfl, hkind, hgrade, ["true"], rfl⟩

end EnumSample

end ClassFacts
