import ClassFacts.Inspect
import ClassFacts.Proofs.Keyed
import Mathlib.Data.List.Basic

namespace ClassFacts

open Json (Value)

/-- Of the rows of an answer, those with an entry of the given key, and of each that entry alone. -/
def Json.Value.project (key : String) : Value → Value
  | .array rows => .array (rows.filterMap fun row => (row.get? key).map fun v => .object [(key, v)])
  | v => v

namespace Session

def groupsValue (config : Config) (p : Parameter) : Value :=
  .ofList .text (Groups.ofParameter config p).result

/-- The groups of the last parameter of a name. -/
def lastGroups (config : Config) (m : Method) (name : String) : Value :=
  match m.parameters.reverse.find? (·.name == name) with
  | some p => groupsValue config p
  | none => .array []

/-- The groups of the parameters of a method by name, each name once and where it first comes. -/
def groupsByName (config : Config) (m : Method) : List (String × Value) :=
  (m.parameters.map Parameter.name).eraseDups.map fun name => (name, lastGroups config m name)

variable {s : Session}

/-- The events on the way do not matter to what is gathered. -/
theorem parameterGroups_result (parameters : List Parameter) :
    (s.parameterGroups parameters).result =
      Entries.gathered Parameter.name (groupsValue s.config) parameters := by
  have hfold : ∀ log : Logged (List (String × Value)),
      (parameters.foldl
        (fun log p => log.bind fun entries => (Groups.ofParameter s.config p).map fun groups =>
          Entries.put p.name (.ofList .text groups) entries) log).result =
      parameters.foldl (fun found p => Entries.put p.name (groupsValue s.config p) found)
        log.result := by
    induction parameters with
    | nil => exact fun _ => rfl
    | cons p rest ih => exact fun log => ih _
  exact hfold (.quiet [])

theorem groupsByName_eq (m : Method) :
    Entries.gathered Parameter.name (groupsValue s.config) m.parameters =
      groupsByName s.config m := by
  refine Entries.gathered_eq_map _ _ fun name p hp => ?_
  simp only [lastGroups, hp]

theorem overloadGroups_none (m : Method) :
    (s.overloadGroups none m).result = groupsByName s.config m :=
  (parameterGroups_result m.parameters).trans (groupsByName_eq m)

theorem overloadGroups_some (name : String) (m : Method) :
    (s.overloadGroups (some name) m).result =
      ((Entries.get? name (groupsByName s.config m)).map (name, ·)).toList := by
  rw [← groupsByName_eq]
  exact (parameterGroups_result _).trans
    (Entries.gathered_filter Parameter.name (groupsValue s.config) name m.parameters)

theorem overloadsGroups_none (overloads : List Method) :
    (s.overloadsGroups none overloads).result = overloads.map (groupsByName s.config) := by
  induction overloads with
  | nil => rfl
  | cons m rest ih =>
    simp [overloadsGroups, Logged.bind, Logged.map, overloadGroups_none, ih]

/-- An overload without the wanted parameter has no row. -/
theorem overloadsGroups_some (name : String) (overloads : List Method) :
    (s.overloadsGroups (some name) overloads).result =
      (overloads.map (groupsByName s.config)).filterMap fun entries =>
        (Entries.get? name entries).map fun v => [(name, v)] := by
  induction overloads with
  | nil => rfl
  | cons m rest ih =>
    simp only [overloadsGroups, Logged.bind, Logged.map, overloadGroups_some, ih, List.map_cons,
      List.filterMap_cons]
    cases Entries.get? name (groupsByName s.config m) <;> simp

theorem get?_groupsByName_isSome {name : String} {m : Method} :
    (Entries.get? name (groupsByName s.config m)).isSome ↔ ∃ p ∈ m.parameters, p.name = name := by
  rw [← groupsByName_eq, Entries.get?_gathered]
  simp

/-- There is a row exactly if an overload has the wanted parameter. -/
theorem overloadsGroups_some_eq_nil {name : String} {overloads : List Method} :
    (s.overloadsGroups (some name) overloads).result = [] ↔
      ∀ m ∈ overloads, ∀ p ∈ m.parameters, p.name ≠ name := by
  rw [overloadsGroups_some, List.filterMap_map, List.filterMap_eq_nil_iff]
  refine forall₂_congr fun m _ => ?_
  have hm := @get?_groupsByName_isSome s name m
  rw [Function.comp_apply, Option.map_eq_none_iff, ← Option.not_isSome_iff_eq_none, hm]
  push Not
  rfl

theorem groups_unknown_class {className : String} (h : s.classes.find? className = none)
    (methodName : String) (wanted : Option String) :
    (s.groups className methodName wanted).result =
      .error (.failed ("Class '" ++ className ++ "' not found")) := by
  simp [groups, withClass, h]

section Answers

variable {className methodName : String} {c : ClassDecl}

theorem groups_unknown_method (h : s.classes.find? className = some c)
    (hnone : c.methodsNamed methodName = []) (wanted : Option String) :
    (s.groups className methodName wanted).result =
      .error (.failed ("Method '" ++ methodName ++ "' not found on '" ++ className ++ "'")) := by
  simp [groups, withClass, h, hnone]

variable (h : s.classes.find? className = some c) (hsome : c.methodsNamed methodName ≠ [])

include h hsome

theorem groups_none_result :
    (s.groups className methodName none).result =
      .ok (.ofList (fun m => .object (groupsByName s.config m)) (c.methodsNamed methodName)) := by
  have hrows := overloadsGroups_none (s := s) (c.methodsNamed methodName)
  simp [groups, withClass, h, hsome, Logged.map, hrows, Value.ofList]

theorem groups_some_of_has {wanted : String}
    (hhas : ∃ m ∈ c.methodsNamed methodName, ∃ p ∈ m.parameters, p.name = wanted) :
    (s.groups className methodName (some wanted)).result =
      .ok (.ofList .object
        (s.overloadsGroups (some wanted) (c.methodsNamed methodName)).result) := by
  have hrows : (s.overloadsGroups (some wanted) (c.methodsNamed methodName)).result ≠ [] := by
    rw [Ne, overloadsGroups_some_eq_nil]
    push Not
    exact hhas
  simp only [groups, withClass, h, List.isEmpty_iff, hsome, if_false, Logged.map]
  split
  next hnil => exact absurd hnil hrows
  next => rfl

theorem groups_some_of_lacks {wanted : String}
    (hlacks : ∀ m ∈ c.methodsNamed methodName, ∀ p ∈ m.parameters, p.name ≠ wanted) :
    (s.groups className methodName (some wanted)).result =
      .error (.failed ("Parameter '" ++ wanted ++ "' not found on '" ++ methodName ++ "'")) := by
  have hrows := overloadsGroups_some_eq_nil (s := s).mpr hlacks
  simp [groups, withClass, h, hsome, Logged.map, hrows]

end Answers

/-- The rows of a wanted parameter are the entries for it in all rows. -/
theorem project_rows (wanted : String) (overloads : List Method) :
    (Value.ofList (fun m => .object (groupsByName s.config m)) overloads).project wanted =
      .ofList .object (s.overloadsGroups (some wanted) overloads).result := by
  rw [overloadsGroups_some, Value.ofList, Value.project, Value.ofList, List.filterMap_map,
    List.filterMap_map, List.map_filterMap]
  congr 1
  refine List.filterMap_congr fun m _ => ?_
  rw [Function.comp_apply, Function.comp_apply, Value.get?, Option.map_map]
  rfl

/-- To ask for the groups of one parameter is to project what is said without asking for it: an
error stays what it is, and of the rows, one for each overload with the groups of its parameters by
name, the entries of that parameter are left. Only if there is none, the parameter is not found. -/
theorem groups_some_eq_project (s : Session) (className methodName wanted : String) :
    (∀ e, (s.groups className methodName none).result = .error e →
      (s.groups className methodName (some wanted)).result = .error e) ∧
    ∀ v, (s.groups className methodName none).result = .ok v →
      ∃ c, s.classes.find? className = some c ∧
        v = .ofList (fun m => .object (groupsByName s.config m)) (c.methodsNamed methodName) ∧
        (∀ m ∈ c.methodsNamed methodName, (m.parameters.map Parameter.name).Nodup →
          groupsByName s.config m =
            m.parameters.map fun p => (p.name, groupsValue s.config p)) ∧
        ((∃ m ∈ c.methodsNamed methodName, ∃ p ∈ m.parameters, p.name = wanted) →
          (s.groups className methodName (some wanted)).result = .ok (v.project wanted)) ∧
        ((∀ m ∈ c.methodsNamed methodName, ∀ p ∈ m.parameters, p.name ≠ wanted) →
          (s.groups className methodName (some wanted)).result =
            .error (.failed
              ("Parameter '" ++ wanted ++ "' not found on '" ++ methodName ++ "'"))) := by
  cases hclass : s.classes.find? className with
  | none =>
    have hresult := groups_unknown_class hclass methodName
    exact ⟨fun e he => (hresult (some wanted)).trans ((hresult none).symm.trans he),
      fun v hv => by cases (hresult none).symm.trans hv⟩
  | some c =>
    by_cases hsome : c.methodsNamed methodName = []
    · have hresult := groups_unknown_method hclass hsome
      exact ⟨fun e he => (hresult (some wanted)).trans ((hresult none).symm.trans he),
        fun v hv => by cases (hresult none).symm.trans hv⟩
    · have hrows := groups_none_result hclass hsome
      refine ⟨fun e he => (by cases hrows.symm.trans he), fun v hv => ?_⟩
      obtain rfl := Except.ok.inj (hrows.symm.trans hv)
      refine ⟨c, rfl, rfl, fun m _ hnodup => ?_, fun hhas => ?_, groups_some_of_lacks hclass hsome⟩
      · rw [← groupsByName_eq]
        exact Entries.gathered_of_nodup _ _ hnodup
      · rw [project_rows]
        exact groups_some_of_has hclass hsome hhas

/-- A parameter with one validation group. -/
def grouped (name group : String) : Parameter :=
  ⟨name, .ofQualified "x.T",
    [(AnnotationUse.ofType (.ofQualified "NotNull")).withProperty "groups"
      (.typeRef (.ofQualified group))]⟩

/-- A class with three overloads of a method: without parameters, with one name twice, and with
the other name alone. -/
def overloaded : ClassDecl :=
  { ClassDecl.ofQualified "x.C" .classType with
    methods := [.plain "m" (.ofQualified "void"),
      { Method.plain "m" (.ofQualified "void") with
        parameters := [grouped "a" "x.A", grouped "b" "x.B", grouped "a" "x.C"] },
      { Method.plain "m" (.ofQualified "void") with parameters := [grouped "b" "x.D"] }] }

def validating : Config :=
  ⟨.empty, .empty, .empty, .empty, .ofList ["NotNull"], "Validated", "value", "groups", 1⟩

theorem groups_some_eq_project_overloaded :
    ((⟨.ofClasses [overloaded], validating⟩ : Session).groups "x.C" "m" none).result =
        .ok (.array [.object [],
          .object [("a", .array [.text "x.C"]), ("b", .array [.text "x.B"])],
          .object [("b", .array [.text "x.D"])]]) ∧
      ((⟨.ofClasses [overloaded], validating⟩ : Session).groups "x.C" "m" (some "a")).result =
        .ok (.array [.object [("a", .array [.text "x.C"])]]) := by
  have hall : ((⟨.ofClasses [overloaded], validating⟩ : Session).groups "x.C" "m" none).result =
      .ok (.array [.object [], .object [("a", .array [.text "x.C"]), ("b", .array [.text "x.B"])],
        .object [("b", .array [.text "x.D"])]]) := rfl
  obtain ⟨c, hc, _, _, hhas, _⟩ :=
    (groups_some_eq_project ⟨.ofClasses [overloaded], validating⟩ "x.C" "m" "a").2 _ hall
  obtain rfl : c = overloaded := Option.some.inj (hc.symm.trans (by cbv))
  exact ⟨hall, hhas ⟨_, List.mem_cons_of_mem _ List.mem_cons_self, _, List.mem_cons_self, rfl⟩⟩

end Session

end ClassFacts
