import ClassFacts.Proofs.CommandLine.Answers
import ClassFacts.Proofs.CommandLine.Requests
import ClassFacts.Proofs.Documents.RoundTrip
import Mathlib.Logic.Function.Basic

namespace ClassFacts

open Json (Value)

namespace Invocation

variable {readText : String → Except FileFault String} {i : Invocation} {v : Value}

/-- The configuration that is loaded, or the standard one if no path leads to another. -/
def config (readText : String → Except FileFault String) (i : Invocation) : Except Error Config :=
  match i.configPath with
  | some path => load readText path
  | none => .ok Config.standard

/-- Both files are loaded, and the command has an answer on what they say. -/
def Answers (readText : String → Except FileFault String) (i : Invocation) (v : Value) : Prop :=
  ∃ config classes, i.config readText = .ok config ∧ load readText i.modelPath = .ok classes ∧
    (i.command.answer ⟨classes, config⟩).result = .ok v

theorem answer_eq_ok_iff : i.answer readText = .ok v ↔ i.Answers readText v := by
  have hconfig : i.answer readText = (do
      let config ← (i.config readText).mapError CommandError.core
      let classes ← (load readText i.modelPath).mapError CommandError.core
      (i.command.answer ⟨classes, config⟩).result) := by
    unfold Invocation.answer Invocation.config
    cases i.configPath <;> rfl
  simp only [hconfig, bind_eq_ok, mapError_eq_ok_iff, Answers]
  constructor
  · rintro ⟨config, hload, classes, hclasses, hanswer⟩
    exact ⟨config, classes, hload, hclasses, hanswer⟩
  · rintro ⟨config, classes, hload, hclasses, hanswer⟩
    exact ⟨config, hload, classes, hclasses, hanswer⟩

end Invocation

section Outcomes

variable {environment : String → Option String} {readText : String → Except FileFault String}
  {arguments : List String} {i : Invocation} (h : Request.ofArguments environment arguments = .run i)

include h

theorem runProgram_answer {v : Value} (hanswer : i.Answers readText v) :
    runProgram environment readText arguments = ⟨0, v.pretty ++ "\n", ""⟩ := by
  unfold runProgram
  simp only [h, Invocation.answer_eq_ok_iff.mpr hanswer]

theorem runProgram_fails (hnone : ∀ v, ¬ i.Answers readText v) :
    ∃ complaint, runProgram environment readText arguments = ⟨1, "", complaint⟩ := by
  cases hanswer : i.answer readText with
  | ok v => exact absurd (Invocation.answer_eq_ok_iff.mp hanswer) (hnone v)
  | error e =>
    unfold runProgram
    simp only [h, hanswer]
    exact ⟨_, rfl⟩

/-- A run depends on what is asked for alone. -/
theorem runProgram_congr {environment' : String → Option String} {arguments' : List String}
    (h' : Request.ofArguments environment' arguments' = .run i) :
    runProgram environment' readText arguments' = runProgram environment readText arguments := by
  unfold runProgram
  rw [h, h']

end Outcomes

/-- The options for paths, each with the variable that stands in for it. -/
def pathVariables : List (String × String) :=
  [("model", "CLASSDOC_MODEL"), ("config", "CLASSDOC_CONFIG")]

section Lookup

variable {before after : List GivenOption} {o : GivenOption}

theorem optionValue?_append (before after : List GivenOption) (name : String) :
    optionValue? (before ++ after) name = (optionValue? before name).or (optionValue? after name) := by
  rw [optionValue?, List.map_append, List.lookup_append]
  rfl

theorem optionValue?_of_ne {name : String} (hne : o.name ≠ name) :
    optionValue? (before ++ o :: after) name = optionValue? (before ++ after) name := by
  have hcons : optionValue? (o :: after) name = optionValue? after name := by
    rw [optionValue?, List.map_cons, GivenOption.entry, List.lookup_cons, beq_false_of_ne hne.symm]
    rfl
  rw [optionValue?_append, optionValue?_append, hcons]

variable (h : ((before ++ o :: after).map GivenOption.name).Nodup)

include h

theorem optionValue?_self : optionValue? (before ++ o :: after) o.name = some o.value := by
  refine lookup_of_mem ?_ (List.mem_map_of_mem (f := GivenOption.entry) (by simp))
  rw [List.map_map]
  exact h

theorem optionValue?_without : optionValue? (before ++ after) o.name = none := by
  rw [List.map_append, List.map_cons, List.nodup_middle, List.nodup_cons] at h
  refine lookup_eq_none ?_
  rw [List.map_map]
  simpa using h.1

end Lookup

namespace CommandLine

variable {environment : String → Option String} {l : CommandLine} {i : Invocation}

theorem ofArguments_of_fits (hfits : l.Fits) (hl : l.invocation? environment = some i) :
    Request.ofArguments environment l.arguments = .run i :=
  ofArguments_eq_run_iff.mpr ⟨l, hfits, rfl, hl⟩

/-- What is asked for depends on the environment and the options by the paths alone. -/
theorem invocation?_congr {environment' : String → Option String} (options : List GivenOption)
    (hpaths : ∀ p ∈ pathVariables,
      ({ l with options := options } : CommandLine).path? environment' p.1 p.2 =
        l.path? environment p.1 p.2) :
    ({ l with options := options } : CommandLine).invocation? environment' =
      l.invocation? environment := by
  have hmodel := hpaths ("model", "CLASSDOC_MODEL") (by simp [pathVariables])
  have hconfig := hpaths ("config", "CLASSDOC_CONFIG") (by simp [pathVariables])
  simp only [invocation?, hmodel, hconfig]

/-- The environment with another value for one variable. -/
def reset (environment : String → Option String) (variableName : String) (value : Option String) :
    String → Option String :=
  Function.update environment variableName value

theorem eq_of_pathVariables : ∀ p ∈ pathVariables, ∀ q ∈ pathVariables,
    p.1 = q.1 ∨ p.2 = q.2 → p = q := by
  unfold pathVariables
  decide

variable {p : String × String} (hp : p ∈ pathVariables)

include hp

/-- An option on the line makes its variable irrelevant. -/
theorem invocation?_reset (hset : (optionValue? l.options p.1).isSome) (value : Option String) :
    l.invocation? (reset environment p.2 value) = l.invocation? environment := by
  refine invocation?_congr l.options fun q hq => ?_
  by_cases hsame : p = q
  · subst hsame
    obtain ⟨path, hpath⟩ := Option.isSome_iff_exists.mp hset
    simp [path?, hpath]
  · have hne : q.2 ≠ p.2 := fun he => hsame (eq_of_pathVariables p hp q hq (.inr he.symm))
    rw [path?, path?, reset, Function.update_of_ne hne]

/-- A path may as well come from the variable of its option. -/
theorem invocation?_moved {before after : List GivenOption} {o : GivenOption}
    (hoptions : l.options = before ++ o :: after)
    (honce : (l.options.map GivenOption.name).Nodup) (ho : o.name = p.1) :
    ({ l with options := before ++ after } : CommandLine).invocation?
        (reset environment p.2 (some o.value)) = l.invocation? environment := by
  rw [hoptions] at honce
  refine invocation?_congr _ fun q hq => ?_
  by_cases hsame : p = q
  · subst hsame
    rw [path?, path?, hoptions, ← ho, optionValue?_without honce, optionValue?_self honce, reset,
      Function.update_self]
    rfl
  · have hname : o.name ≠ q.1 := fun he =>
      hsame (eq_of_pathVariables p hp q hq (.inl (ho.symm.trans he)))
    have hne : q.2 ≠ p.2 := fun he => hsame (eq_of_pathVariables p hp q hq (.inr he.symm))
    rw [path?, path?, hoptions, optionValue?_of_ne hname, reset, Function.update_of_ne hne]

end CommandLine

/-- How a command line that asks for a run is answered. Only an answer is printed, and one without
floating-point numbers is read again from what is printed. A path counts the same whether an option
or its variable gives it, and the option goes first. -/
structure RunsLawfully (environment : String → Option String)
    (readText : String → Except FileFault String) (l : CommandLine) (i : Invocation) : Prop where
  printed : ∀ v, i.Answers readText v →
    (runProgram environment readText l.arguments).status = 0 ∧
      (runProgram environment readText l.arguments).output = v.pretty ++ "\n" ∧
      (v.isFloatFree = true →
        Value.parse (runProgram environment readText l.arguments).output = .ok v)
  refused : (∀ v, ¬ i.Answers readText v) →
    (runProgram environment readText l.arguments).status = 1 ∧
      (runProgram environment readText l.arguments).output = ""
  overridden : ∀ p ∈ pathVariables, (optionValue? l.options p.1).isSome → ∀ value,
    runProgram (CommandLine.reset environment p.2 value) readText l.arguments =
      runProgram environment readText l.arguments
  moved : ∀ p ∈ pathVariables, ∀ before o after, l.options = before ++ o :: after → o.name = p.1 →
    runProgram (CommandLine.reset environment p.2 (some o.value)) readText
        ({ l with options := before ++ after } : CommandLine).arguments =
      runProgram environment readText l.arguments

/-- Just the arguments that are written as a fitting command line ask for a run, and every such run
is answered lawfully, whatever the environment and the files. -/
theorem runs_iff_written (environment : String → Option String)
    (readText : String → Except FileFault String) (arguments : List String) (i : Invocation) :
    Request.ofArguments environment arguments = .run i ↔
      ∃ l : CommandLine, l.Fits ∧ l.arguments = arguments ∧ l.invocation? environment = some i ∧
        RunsLawfully environment readText l i := by
  constructor
  · intro h
    obtain ⟨l, hfits, rfl, hl⟩ := ofArguments_eq_run_iff.mp h
    refine ⟨l, hfits, rfl, hl, fun v hv => ?_, fun hnone => ?_, fun p hp hset value => ?_,
      fun p hp before o after hoptions ho => ?_⟩
    · have houtput := runProgram_answer h hv
      obtain ⟨config, classes, _, _, hanswer⟩ := hv
      rw [houtput]
      exact ⟨rfl, rfl, Command.parse_pretty_answer hanswer⟩
    · obtain ⟨complaint, hcomplaint⟩ := runProgram_fails h hnone
      rw [hcomplaint]
      exact ⟨rfl, rfl⟩
    · refine runProgram_congr h (CommandLine.ofArguments_of_fits hfits ?_)
      rw [CommandLine.invocation?_reset hp hset, hl]
    · have hsublist : (before ++ after).Sublist l.options := by
        rw [hoptions]
        exact List.Sublist.append_left (List.sublist_cons_self o after) before
      have hrest : ({ l with options := before ++ after } : CommandLine).Fits :=
        ⟨⟨fun other hother => hfits.options.suit other (hsublist.subset hother),
          hfits.options.once.sublist (hsublist.map _)⟩, hfits.own⟩
      refine runProgram_congr h (CommandLine.ofArguments_of_fits hrest ?_)
      rw [CommandLine.invocation?_moved hp hoptions hfits.options.once ho, hl]
  · rintro ⟨l, hfits, rfl, hl, _⟩
    exact CommandLine.ofArguments_of_fits hfits hl

/-- A class with one field. -/
def oneField : ClassDecl :=
  { ClassDecl.ofQualified "x.C" .classType with fields := [⟨"id", ⟨"T", "", none, []⟩, .declared⟩] }

/-- A model file of that class. -/
def oneFile (path : String) : Except FileFault String :=
  if path = "m.json" then .ok (Documented.dump (Registry.ofClasses [oneField])).compact
  else .error .notFound

/-- The variable for the model leads to another path than the option. -/
def elsewhere (variableName : String) : Option String :=
  if variableName = "CLASSDOC_MODEL" then some "none.json" else none

theorem runs_iff_written_overriding :
    let o := runProgram elsewhere oneFile ["--model=m.json", "fields", "--class", "x.C", "--"]
    let v := Value.array [.object
      [("name", .text "id"), ("type", .text "T"), ("origin", .text "declared")]]
    o.status = 0 ∧
      o.output = "[\n  \x7b\n    \"name\": \"id\",\n    \"type\": \"T\",\n    " ++
        "\"origin\": \"declared\"\n  \x7d\n]\n" ∧
      Value.parse o.output = .ok v := by
  have hrequest : Request.ofArguments elsewhere
      ["--model=m.json", "fields", "--class", "x.C", "--"] =
        .run ⟨"m.json", none, .fields "x.C"⟩ := by decide
  have hload : (load oneFile "m.json" : Except Error Registry) = .ok (.ofClasses [oneField]) := by
    have hformat : Format.ofPath "m.json" = .json := by decide
    show Documented.read (Format.ofPath "m.json") _ = _
    rw [hformat]
    exact roundTrips_registry.read_dump _ trivial (by decide)
  have hanswer : (Command.answer ⟨.ofClasses [oneField], Config.standard⟩ (.fields "x.C")).result =
      .ok (.array [.object
        [("name", .text "id"), ("type", .text "T"), ("origin", .text "declared")]]) := by rfl
  obtain ⟨l, _, hl, _, hlaw⟩ := (runs_iff_written elsewhere oneFile _ _).mp hrequest
  obtain ⟨hstatus, houtput, hread⟩ := hlaw.printed _ ⟨_, _, rfl, hload, hanswer⟩
  rw [hl] at hstatus houtput hread
  exact ⟨hstatus, houtput.trans (by decide), hread rfl⟩

end ClassFacts
