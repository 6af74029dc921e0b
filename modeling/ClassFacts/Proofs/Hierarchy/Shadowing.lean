import ClassFacts.Proofs.Hierarchy.Walk

namespace ClassFacts.Hierarchy

def declares (name : String) (c : ClassDecl) : Bool :=
  c.fields.any (·.name == name)

def derives (config : Config) (name : String) (c : ClassDecl) : Bool :=
  (synthesizedFields config c).any (·.name == name)

/-- The flattened fields of a chain, each with the level of the class that it comes from. -/
def contributions (config : Config) : List ClassDecl → List (Nat × Field)
  | [] => []
  | c :: above =>
    (synthesizedFields config c).map (0, ·) ++
      (contributions config above).map (fun (level, f) => (level + 1, f)) ++ c.fields.map (0, ·)

/-- The level from which the last field of a name comes. -/
def lastOwner? (name : String) (fields : List (Nat × Field)) : Option Nat :=
  (fields.reverse.find? (·.2.name == name)).map Prod.fst

/-- The last level at which there is a class of a kind. -/
def furthest? (p : ClassDecl → Bool) : List ClassDecl → Option Nat
  | [] => none
  | c :: above => ((furthest? p above).map (· + 1)).or (if p c then some 0 else none)

variable {config : Config} {classes : Registry} {name : String}

theorem contributions_fields (chain : List ClassDecl) :
    (contributions config chain).map Prod.snd = flatten config chain := by
  induction chain with
  | nil => rfl
  | cons c above ih =>
    have hsnd : (Prod.snd ∘ fun x : Nat × Field => (x.1 + 1, x.2)) = Prod.snd := rfl
    have htag : (Prod.snd ∘ fun f : Field => (0, f)) = id := rfl
    simp only [contributions, List.map_append, List.map_map, hsnd, htag, ih, List.map_id]
    rw [flatten_cons]

theorem lastOwner?_append (xs ys : List (Nat × Field)) :
    lastOwner? name (xs ++ ys) = (lastOwner? name ys).or (lastOwner? name xs) := by
  simp [lastOwner?, List.find?_append, Option.map_or]

theorem lastOwner?_raise (xs : List (Nat × Field)) :
    lastOwner? name (xs.map fun (level, f) => (level + 1, f)) =
      (lastOwner? name xs).map (· + 1) := by
  have hname : ((fun x : Nat × Field => x.2.name == name) ∘ fun x : Nat × Field => (x.1 + 1, x.2)) =
      fun x => x.2.name == name := rfl
  simp only [lastOwner?, ← List.map_reverse, List.find?_map, hname, Option.map_map]
  rfl

theorem lastOwner?_own (fields : List Field) :
    lastOwner? name (fields.map (0, ·)) =
      if fields.any (·.name == name) then some 0 else none := by
  induction fields with
  | nil => rfl
  | cons f fields ih =>
    have hcons : ((f :: fields).map ((0 : Nat), ·)) = [(0, f)] ++ fields.map (0, ·) := rfl
    have hone : lastOwner? name [((0 : Nat), f)] = if f.name == name then some 0 else none := by
      cases hf : f.name == name <;> simp [lastOwner?, hf]
    rw [hcons, lastOwner?_append, ih, hone, List.any_cons]
    cases fields.any (·.name == name) <;> simp

/-- The field that counts is the one of the nearest class that declares it; where none does, it
is the one of the furthest class that derives it. -/
theorem lastOwner?_contributions (chain : List ClassDecl) :
    lastOwner? name (contributions config chain) =
      (chain.findIdx? (declares name)).or (furthest? (derives config name) chain) := by
  induction chain with
  | nil => rfl
  | cons c above ih =>
    rw [contributions, lastOwner?_append, lastOwner?_append, lastOwner?_own, lastOwner?_raise,
      lastOwner?_own, ih, List.findIdx?_cons, furthest?, Option.map_or, Option.or_assoc]
    cases hd : declares name c with
    | true =>
      rw [declares] at hd
      simp [hd]
    | false =>
      rw [declares] at hd
      simp [hd, derives]

theorem furthest?_eq_none_iff {p : ClassDecl → Bool} {chain : List ClassDecl} :
    furthest? p chain = none ↔ ∀ c ∈ chain, p c = false := by
  induction chain with
  | nil => simp [furthest?]
  | cons c above ih =>
    cases hp : p c <;> simp [furthest?, hp, ih]

/-- A field of a class counts exactly if the class declares it or no ancestor has one of that
name. -/
theorem lastOwner?_eq_zero_iff {c : ClassDecl} {above : List ClassDecl}
    (hown : declares name c = true ∨ derives config name c = true) :
    lastOwner? name (contributions config (c :: above)) = some 0 ↔
      declares name c = true ∨
        ∀ d ∈ above, declares name d = false ∧ derives config name d = false := by
  rw [lastOwner?_contributions, List.findIdx?_cons, furthest?]
  cases hd : declares name c with
  | true => simp
  | false =>
    have hder : derives config name c = true := by simpa [hd] using hown
    have hnone :
        (above.findIdx? (declares name)).or (furthest? (derives config name) above) = none ↔
          ∀ d ∈ above, declares name d = false ∧ derives config name d = false := by
      rw [Option.or_eq_none_iff, List.findIdx?_eq_none_iff, furthest?_eq_none_iff]
      exact ⟨fun h d hmem => ⟨h.1 d hmem, h.2 d hmem⟩,
        fun h => ⟨fun d hmem => (h d hmem).1, fun d hmem => (h d hmem).2⟩⟩
    rw [← hnone]
    cases above.findIdx? (declares name) <;> cases furthest? (derives config name) above <;>
      simp [hder]

/-- Of the fields with a name that a class contributes itself, the last one in its flattened
fields is its own exactly if it declares it or no ancestor contributes one of that name; in
general it is the one of the nearest class that declares it, otherwise the one of the furthest
that derives it. -/
theorem own_field_last_iff {config : Config} {classes : Registry} {c : ClassDecl}
    {fields : List Field} {name : String}
    (hok : (collect config classes c).result = .ok fields)
    (hopen : config.isOpaqueTerminator c.name = false)
    (hown : declares name c = true ∨ derives config name c = true) :
    ∃ above, Chain config classes (parent? classes c) above ∧
      (contributions config (c :: above)).map Prod.snd = fields ∧
      lastOwner? name (contributions config (c :: above)) =
        ((c :: above).findIdx? (declares name)).or (furthest? (derives config name) (c :: above)) ∧
      (lastOwner? name (contributions config (c :: above)) = some 0 ↔
        declares name c = true ∨
          ∀ d ∈ above, declares name d = false ∧ derives config name d = false) := by
  obtain ⟨chain, hchain, hfields⟩ := collectFrom_ok hok
  cases hchain with
  | terminator h => rw [h] at hopen; cases hopen
  | step _ habove =>
    exact ⟨_, habove, (contributions_fields _).trans hfields.symm, lastOwner?_contributions _,
      lastOwner?_eq_zero_iff hown⟩

/-- An interface with one accessor. -/
def withAccessor (qualified accessor type : String) : ClassDecl :=
  { ClassDecl.ofQualified qualified .interface with
    methods := [.plain accessor (.ofQualified type)] }

def upper : ClassDecl :=
  withAccessor "x.Upper" "getId" "long"

/-- An interface that has an accessor of its superclass again, with another type. -/
def lower : ClassDecl :=
  { withAccessor "x.Lower" "getId" "int" with superclass := some (.ofQualified "x.Upper") }

def layered : Registry :=
  .ofClasses [upper, lower]

theorem chain_lower : Chain .standard layered (some lower) [lower, upper] := by
  have hlower : parent? layered lower = some upper := by cbv
  have hupper : parent? layered upper = none := rfl
  apply Chain.step (by decide)
  rw [hlower]
  apply Chain.step (by decide)
  rw [hupper]
  exact .absent

theorem collect_lower :
    (collect .standard layered lower).result = .ok (flatten .standard [lower, upper]) :=
  collectFrom_of_chain chain_lower (by decide)

theorem own_field_last_iff_lower :
    ∃ above, Chain .standard layered (parent? layered lower) above ∧
      (contributions .standard (lower :: above)).map Prod.snd = flatten .standard [lower, upper] ∧
      lastOwner? "id" (contributions .standard (lower :: above)) =
        ((lower :: above).findIdx? (declares "id")).or
          (furthest? (derives .standard "id") (lower :: above)) ∧
      (lastOwner? "id" (contributions .standard (lower :: above)) = some 0 ↔
        declares "id" lower = true ∨
          ∀ d ∈ above, declares "id" d = false ∧ derives .standard "id" d = false) :=
  own_field_last_iff collect_lower (by decide) (by decide +kernel)

/-- The field that an interface derives again is not the last of its name. -/
theorem own_field_not_always_last :
    ¬ ∀ (config : Config) (classes : Registry) (c : ClassDecl) (above : List ClassDecl)
        (name : String),
      Chain config classes (some c) (c :: above) →
      (collect config classes c).result = .ok (flatten config (c :: above)) →
      (declares name c = true ∨ derives config name c = true) →
      lastOwner? name (contributions config (c :: above)) = some 0 := by
  intro h
  have hzero := h .standard layered lower [upper] "id" chain_lower collect_lower
    (by decide +kernel)
  have hone : lastOwner? "id" (contributions .standard [lower, upper]) = some 1 := by
    decide +kernel
  cases hzero.symm.trans hone

end ClassFacts.Hierarchy
