import ClassFacts.Hierarchy

namespace ClassFacts.Hierarchy

/-- The class that the superclass reference of a class names. -/
def parent? (classes : Registry) (c : ClassDecl) : Option ClassDecl :=
  c.superclass.bind classes.resolve?

/-- The class so many levels above, whether or not a hierarchy ends before it. -/
def classAt (classes : Registry) (c : Option ClassDecl) : Nat → Option ClassDecl
  | 0 => c
  | level + 1 => (classAt classes c level).bind (parent? classes)

/-- A class and its ancestors up to where the hierarchy ends, however far that is. -/
inductive Chain (config : Config) (classes : Registry) : Option ClassDecl → List ClassDecl → Prop
  | absent : Chain config classes none []
  | terminator {c : ClassDecl} : config.isOpaqueTerminator c.name = true →
      Chain config classes (some c) []
  | step {c : ClassDecl} {chain : List ClassDecl} : config.isOpaqueTerminator c.name = false →
      Chain config classes (parent? classes c) chain → Chain config classes (some c) (c :: chain)

/-- Up to a level every class is there, and none of them ends the hierarchy. -/
def Climbs (config : Config) (classes : Registry) (c : Option ClassDecl) (top : Nat) : Prop :=
  ∀ level ≤ top, ∃ d, classAt classes c level = some d ∧ config.isOpaqueTerminator d.name = false

variable {config : Config} {classes : Registry}

theorem superclass?_result (c : ClassDecl) :
    (superclass? config classes c).result = parent? classes c := by
  unfold superclass? parent?
  cases c.superclass with
  | none => rfl
  | some superclass =>
    cases hr : classes.resolve? superclass <;> simp [hr]

theorem classAt_succ (c : ClassDecl) (level : Nat) :
    classAt classes (some c) (level + 1) = classAt classes (parent? classes c) level := by
  induction level with
  | zero => rfl
  | succ level ih =>
    rw [classAt, ih]
    rfl

/-- From two levels that hold the same class on, the levels agree. -/
theorem classAt_add {c : Option ClassDecl} {i j : Nat}
    (h : classAt classes c i = classAt classes c j) (k : Nat) :
    classAt classes c (i + k) = classAt classes c (j + k) := by
  induction k with
  | zero => exact h
  | succ k ih =>
    show (classAt classes c (i + k)).bind (parent? classes) = _
    rw [ih]
    rfl

theorem climbs_none (top : Nat) : ¬ Climbs config classes none top := by
  intro h
  obtain ⟨d, hd, _⟩ := h 0 (by omega)
  cases hd

theorem climbs_zero {c : ClassDecl} :
    Climbs config classes (some c) 0 ↔ config.isOpaqueTerminator c.name = false := by
  constructor
  · intro h
    obtain ⟨d, hd, hopen⟩ := h 0 (by omega)
    cases hd
    exact hopen
  · intro hopen level hlevel
    obtain rfl : level = 0 := by omega
    exact ⟨c, rfl, hopen⟩

theorem climbs_succ {c : ClassDecl} {top : Nat} :
    Climbs config classes (some c) (top + 1) ↔
      config.isOpaqueTerminator c.name = false ∧ Climbs config classes (parent? classes c) top := by
  constructor
  · intro h
    refine ⟨climbs_zero.mp fun level hlevel => h level (by omega), ?_⟩
    intro level hlevel
    obtain ⟨d, hd, hopen⟩ := h (level + 1) (by omega)
    exact ⟨d, classAt_succ c level ▸ hd, hopen⟩
  · rintro ⟨hopen, h⟩ level hlevel
    cases level with
    | zero => exact ⟨c, rfl, hopen⟩
    | succ level =>
      obtain ⟨d, hd, hd'⟩ := h level (by omega)
      exact ⟨d, (classAt_succ c level).trans hd, hd'⟩

/-- Where levels come round to a class again, there is no end to them. -/
theorem climbs_of_cycle {c : Option ClassDecl} {start period : Nat} (positive : 0 < period)
    (round : classAt classes c (start + period) = classAt classes c start)
    (h : ∀ level < start + period,
      ∃ d, classAt classes c level = some d ∧ config.isOpaqueTerminator d.name = false)
    (top : Nat) : Climbs config classes c top := by
  intro level
  induction level using Nat.strongRecOn with
  | ind level ih =>
    intro hlevel
    by_cases hb : level < start + period
    · exact h level hb
    · obtain ⟨d, hd, hopen⟩ := ih (level - period) (by omega) (by omega)
      refine ⟨d, ?_, hopen⟩
      have hback := classAt_add round (level - (start + period))
      rw [show start + period + (level - (start + period)) = level by omega,
        show start + (level - (start + period)) = level - period by omega] at hback
      exact hback.trans hd

theorem Chain.length_le {c : Option ClassDecl} {chain : List ClassDecl} {top : Nat}
    (h : Chain config classes c chain) (hn : ¬ Climbs config classes c top) :
    chain.length ≤ top := by
  induction h generalizing top with
  | absent => simp
  | terminator => simp
  | step hopen _ ih =>
    cases top with
    | zero => exact absurd (climbs_zero.mpr hopen) hn
    | succ top =>
      have hh := ih fun hc => hn (climbs_succ.mpr ⟨hopen, hc⟩)
      simpa using hh

theorem ancestors_log_none (levels depth : Nat) :
    ancestors config classes levels depth none = ⟨.ok [], []⟩ := by
  cases levels <;> rfl

theorem ancestors_log_terminator (levels depth : Nat) {c : ClassDecl}
    (h : config.isOpaqueTerminator c.name = true) :
    ancestors config classes levels depth (some c) = ⟨.ok [], [.opaqueTerminator]⟩ := by
  cases levels <;> simp [ancestors, h]

theorem ancestors_log_zero (depth : Nat) {c : ClassDecl}
    (h : config.isOpaqueTerminator c.name = false) :
    ancestors config classes 0 depth (some c) =
      ⟨.error ⟨c.qualifiedName, depth⟩, [.ceilingExceeded]⟩ := by
  simp [ancestors, h]

theorem ancestors_log_succ (levels depth : Nat) {c : ClassDecl}
    (h : config.isOpaqueTerminator c.name = false) :
    ancestors config classes (levels + 1) depth (some c) =
      (superclass? config classes c).bind fun next =>
        (ancestors config classes levels (depth + 1) next).map fun chain =>
          chain.map (c :: ·) := by
  simp [ancestors, h]

theorem ancestors_none (levels depth : Nat) :
    (ancestors config classes levels depth none).result = .ok [] := by
  rw [ancestors_log_none]

theorem ancestors_terminator (levels depth : Nat) {c : ClassDecl}
    (h : config.isOpaqueTerminator c.name = true) :
    (ancestors config classes levels depth (some c)).result = .ok [] := by
  rw [ancestors_log_terminator levels depth h]

theorem ancestors_zero (depth : Nat) {c : ClassDecl}
    (h : config.isOpaqueTerminator c.name = false) :
    (ancestors config classes 0 depth (some c)).result = .error ⟨c.qualifiedName, depth⟩ := by
  rw [ancestors_log_zero depth h]

theorem ancestors_succ (levels depth : Nat) {c : ClassDecl}
    (h : config.isOpaqueTerminator c.name = false) :
    (ancestors config classes (levels + 1) depth (some c)).result =
      (ancestors config classes levels (depth + 1) (parent? classes c)).result.map (c :: ·) := by
  simp only [ancestors_log_succ levels depth h, Logged.bind, Logged.map, superclass?_result]

theorem ancestors_of_climbs {levels : Nat} (depth : Nat) {c : Option ClassDecl}
    (h : Climbs config classes c levels) :
    ∃ d, classAt classes c levels = some d ∧
      (ancestors config classes levels depth c).result =
        .error ⟨d.qualifiedName, depth + levels⟩ := by
  induction levels generalizing depth c with
  | zero =>
    obtain ⟨d, hd, hopen⟩ := h 0 (by omega)
    obtain rfl : c = some d := hd
    exact ⟨d, rfl, ancestors_zero depth hopen⟩
  | succ levels ih =>
    cases c with
    | none => exact absurd h (climbs_none _)
    | some c =>
      obtain ⟨hopen, habove⟩ := climbs_succ.mp h
      obtain ⟨d, hd, he⟩ := ih (depth + 1) habove
      refine ⟨d, (classAt_succ c levels).trans hd, ?_⟩
      rw [ancestors_succ levels depth hopen, he,
        show depth + 1 + levels = depth + (levels + 1) by omega]
      rfl

theorem ancestors_of_not_climbs {levels : Nat} (depth : Nat) {c : Option ClassDecl}
    (h : ¬ Climbs config classes c levels) :
    ∃ chain, Chain config classes c chain ∧
      (ancestors config classes levels depth c).result = .ok chain := by
  induction levels generalizing depth c with
  | zero =>
    cases c with
    | none => exact ⟨[], .absent, ancestors_none 0 depth⟩
    | some c =>
      have hterm : config.isOpaqueTerminator c.name = true := by
        simpa [climbs_zero] using h
      exact ⟨[], .terminator hterm, ancestors_terminator 0 depth hterm⟩
  | succ levels ih =>
    cases c with
    | none => exact ⟨[], .absent, ancestors_none _ depth⟩
    | some c =>
      cases hterm : config.isOpaqueTerminator c.name with
      | true => exact ⟨[], .terminator hterm, ancestors_terminator _ depth hterm⟩
      | false =>
        obtain ⟨chain, hchain, hok⟩ := ih (depth + 1) fun hc => h (climbs_succ.mpr ⟨hterm, hc⟩)
        refine ⟨c :: chain, .step hterm hchain, ?_⟩
        rw [ancestors_succ levels depth hterm, hok]
        rfl

theorem ancestors_of_chain {levels : Nat} (depth : Nat) {c : Option ClassDecl}
    {chain : List ClassDecl} (h : Chain config classes c chain) (hlevels : chain.length ≤ levels) :
    (ancestors config classes levels depth c).result = .ok chain := by
  induction h generalizing levels depth with
  | absent => exact ancestors_none levels depth
  | terminator hterm => exact ancestors_terminator levels depth hterm
  | @step c chain hopen _ ih =>
    cases levels with
    | zero => simp at hlevels
    | succ levels =>
      rw [ancestors_succ levels depth hopen, ih (depth + 1) (by simpa using hlevels)]
      rfl

theorem flatten_cons (c : ClassDecl) (chain : List ClassDecl) :
    flatten config (c :: chain) =
      synthesizedFields config c ++ flatten config chain ++ c.fields := by
  simp [flatten]

theorem collectFrom_result (c : Option ClassDecl) (depth : Nat) :
    (collectFrom config classes c depth).result =
      (ancestors config classes (config.maxHierarchyDepth + 1 - depth) depth c).result.map
        (flatten config) := by
  unfold collectFrom Logged.bind
  cases (ancestors config classes (config.maxHierarchyDepth + 1 - depth) depth c).result <;> rfl

/-- Below the ceiling, a class puts its own fields around those of its superclass. -/
theorem collectFrom_succ {c : ClassDecl} {depth : Nat}
    (hopen : config.isOpaqueTerminator c.name = false) (hdepth : depth ≤ config.maxHierarchyDepth) :
    (collectFrom config classes (some c) depth).result =
      (collectFrom config classes (parent? classes c) (depth + 1)).result.map fun above =>
        synthesizedFields config c ++ above ++ c.fields := by
  obtain ⟨levels, hlevels⟩ : ∃ levels, config.maxHierarchyDepth + 1 - depth = levels + 1 :=
    ⟨config.maxHierarchyDepth - depth, by omega⟩
  have habove : config.maxHierarchyDepth + 1 - (depth + 1) = levels := by omega
  rw [collectFrom_result, collectFrom_result, hlevels, habove, ancestors_succ levels depth hopen]
  cases (ancestors config classes levels (depth + 1) (parent? classes c)).result with
  | error fault => rfl
  | ok chain => simp [Except.map, flatten_cons]

theorem collectFrom_of_chain {c : Option ClassDecl} {depth : Nat} {chain : List ClassDecl}
    (h : Chain config classes c chain)
    (hlevels : chain.length ≤ config.maxHierarchyDepth + 1 - depth) :
    (collectFrom config classes c depth).result = .ok (flatten config chain) := by
  rw [collectFrom_result, ancestors_of_chain depth h hlevels]
  rfl

theorem collectFrom_ok {c : Option ClassDecl} {depth : Nat} {fields : List Field}
    (h : (collectFrom config classes c depth).result = .ok fields) :
    ∃ chain, Chain config classes c chain ∧ fields = flatten config chain := by
  rw [collectFrom_result] at h
  rcases Classical.em (Climbs config classes c (config.maxHierarchyDepth + 1 - depth)) with hc | hn
  · obtain ⟨d, _, he⟩ := ancestors_of_climbs depth hc
    rw [he] at h
    cases h
  · obtain ⟨chain, hchain, hok⟩ := ancestors_of_not_climbs depth hn
    rw [hok] at h
    exact ⟨chain, hchain, (Except.ok.inj h).symm⟩

end ClassFacts.Hierarchy
