import ClassFacts.Proofs.CommandLine.Options

namespace ClassFacts

/-- What a command asks for with the options of its own. -/
def question? (name : String) (own : List GivenOption) : Option Command := do
  let className ← optionValue? own "class"
  match name with
  | "fields" => return .fields className
  | "enum-sample" => return .enumSample className (optionValue? own "name-only").isSome
  | "type-args" => return .typeArguments className (← optionValue? own "field")
  | "groups" => return .groups className (← optionValue? own "method") (optionValue? own "param")
  | _ => none

/-- A command line that asks for a run: options, then a command with options of its own, which may
be closed by two hyphens. -/
structure CommandLine where
  options : List GivenOption
  command : String
  own : List GivenOption
  closed : Bool
  deriving Repr

namespace CommandLine

def closing (closed : Bool) : List String :=
  if closed then ["--"] else []

def arguments (l : CommandLine) : List String :=
  l.options.flatMap GivenOption.texts ++
    l.command :: (l.own.flatMap GivenOption.texts ++ closing l.closed)

structure Fits (l : CommandLine) : Prop where
  options : FitOptions globalOptions l.options
  own : ∃ table, commandOptions? l.command = some table ∧ FitOptions table l.own

/-- A path from an option, or else from the variable that stands in for it. -/
def path? (environment : String → Option String) (l : CommandLine) (name variableName : String) :
    Option String :=
  (optionValue? l.options name).or (environment variableName)

/-- What a command line asks for in an environment. A path is not empty. -/
def invocation? (environment : String → Option String) (l : CommandLine) : Option Invocation := do
  let command ← question? l.command l.own
  let modelPath ← l.path? environment "model" "CLASSDOC_MODEL"
  let configPath := l.path? environment "config" "CLASSDOC_CONFIG"
  if modelPath = "" ∨ configPath = some "" then none
  else return ⟨modelPath, configPath, command⟩

end CommandLine

theorem plainNames_global : PlainNames globalOptions := by
  unfold PlainNames globalOptions
  decide

theorem commandOptions?_cases {name : String} {table : OptionTable}
    (h : commandOptions? name = some table) :
    PlainNames table ∧
      (name = "fields" ∨ name = "enum-sample" ∨ name = "type-args" ∨ name = "groups") := by
  unfold commandOptions? at h
  split at h
  case h_5 => cases h
  all_goals
    cases h
    refine ⟨?_, by decide⟩
    unfold PlainNames
    decide

theorem isPlain_command {name : String} {table : OptionTable}
    (h : commandOptions? name = some table) : IsPlain name := by
  rcases (commandOptions?_cases h).2 with rfl | rfl | rfl | rfl <;> simp [IsPlain]

theorem endsOptions_closing (closed : Bool) : EndsOptions (CommandLine.closing closed) := by
  cases closed <;> simp [EndsOptions, CommandLine.closing]

/-- What a command asks for, given the values of its options. -/
def ask (name : String) (values : OptionValues) : Except Detour Command := do
  let className ← need values "class"
  match name with
  | "fields" => return .fields className
  | "enum-sample" => return .enumSample className (values.lookup "name-only").isSome
  | "type-args" => return .typeArguments className (← need values "field")
  | _ => return .groups className (← need values "method") (values.lookup "param")

theorem need_eq_ok_iff {values : OptionValues} {name value : String} :
    need values name = .ok value ↔ values.lookup name = some value := by
  unfold need
  cases values.lookup name <;> simp

theorem ask_eq_ok_iff {name : String} {table : OptionTable} (h : commandOptions? name = some table)
    {values : OptionValues} {own : List GivenOption}
    (hvalues : ∀ name, values.lookup name = optionValue? own name) {command : Command} :
    ask name values = .ok command ↔ question? name own = some command := by
  rcases (commandOptions?_cases h).2 with rfl | rfl | rfl | rfl <;>
    simp [ask, question?, bind_eq_ok, need_eq_ok_iff, hvalues, Option.bind_eq_some_iff]

theorem readCommand_eq (name : String) (arguments : List String) :
    readCommand name arguments = (do
      let some table := commandOptions? name | throw .misuse
      let (read, rest) ← readOptions table false arguments .empty
      let values ← read.check table
      if rest ≠ [] ∧ rest ≠ ["--"] then throw .misuse
      ask name values) :=
  rfl

theorem readCommand_eq_ok_iff {name : String} {arguments : List String} {command : Command} :
    readCommand name arguments = .ok command ↔
      ∃ table own closed, commandOptions? name = some table ∧ FitOptions table own ∧
        arguments = own.flatMap GivenOption.texts ++ CommandLine.closing closed ∧
        question? name own = some command := by
  rw [readCommand_eq]
  cases htable : commandOptions? name with
  | none => simp
  | some table =>
    have hnames := (commandOptions?_cases htable).1
    constructor
    · intro h
      obtain ⟨⟨read, rest⟩, hoptions, h⟩ := bind_eq_ok.mp h
      obtain ⟨values, hvalues, h⟩ := bind_eq_ok.mp h
      obtain ⟨own, hown, _, rfl, rfl⟩ :=
        (readOptions_eq_ok_iff hnames false).mp ⟨read, hoptions, hvalues⟩
      dsimp only at h
      split at h
      next => cases h
      next hclosing =>
        refine ⟨table, own, !rest.isEmpty, rfl, hown, ?_, (ask_eq_ok_iff htable (lookup_given hown)).mp h⟩
        rcases Classical.not_and_iff_not_or_not.mp hclosing with hrest | hrest
        · rw [not_not.mp hrest]; rfl
        · rw [not_not.mp hrest]; rfl
    · rintro ⟨table', own, closed, hsame, hown, rfl, hquestion⟩
      obtain rfl := Option.some.inj hsame
      obtain ⟨read, hoptions, hvalues⟩ := (readOptions_eq_ok_iff hnames false).mpr
        ⟨own, hown, endsOptions_closing closed, rfl, rfl⟩
      have hask := (ask_eq_ok_iff htable (lookup_given hown)).mpr hquestion
      have hclosing : ¬ (CommandLine.closing closed ≠ [] ∧ CommandLine.closing closed ≠ ["--"]) := by
        cases closed <;> decide
      simp only [hoptions, ok_bind, hvalues]
      rw [if_neg hclosing]
      exact hask

theorem readPath_eq_ok_iff {environment : String → Option String} {table : OptionTable}
    {given : List GivenOption} (h : FitOptions table given) {name variableName : String}
    {path : Option String} :
    readPath environment (given.map GivenOption.entry).reverse name variableName = .ok path ↔
      (optionValue? given name).or (environment variableName) = path ∧ path ≠ some "" := by
  unfold readPath
  rw [lookup_given h]
  split
  next hempty =>
    simp only [reduceCtorEq, false_iff, hempty]
    rintro ⟨rfl, hne⟩
    exact hne rfl
  next hpath =>
    rw [Except.ok.injEq]
    constructor
    · rintro rfl
      exact ⟨rfl, hpath⟩
    · exact And.left

theorem CommandLine.invocation?_eq_some_iff {environment : String → Option String}
    {l : CommandLine} {i : Invocation} :
    l.invocation? environment = some i ↔
      question? l.command l.own = some i.command ∧
        l.path? environment "model" "CLASSDOC_MODEL" = some i.modelPath ∧ i.modelPath ≠ "" ∧
        l.path? environment "config" "CLASSDOC_CONFIG" = i.configPath ∧ i.configPath ≠ some "" := by
  obtain ⟨modelPath, configPath, command⟩ := i
  simp only [invocation?, Option.bind_eq_bind, Option.bind_eq_some_iff]
  constructor
  · rintro ⟨command', hcommand, modelPath', hmodel, h⟩
    split at h
    next => cases h
    next hpaths =>
      cases h
      exact ⟨hcommand, hmodel, fun he => hpaths (.inl he), rfl, fun he => hpaths (.inr he)⟩
  · rintro ⟨hcommand, hmodel, hmodelPath, rfl, hconfigPath⟩
    refine ⟨command, hcommand, modelPath, hmodel, ?_⟩
    rw [if_neg (by rintro (he | he); exacts [hmodelPath he, hconfigPath he])]
    rfl

/-- A command behind its options is read with the paths that the options or the variables give. -/
theorem readInvocation_eq_ok_iff {environment : String → Option String} {arguments : List String}
    {i : Invocation} :
    readInvocation environment arguments = .ok i ↔
      ∃ l : CommandLine, l.Fits ∧ l.arguments = arguments ∧ l.invocation? environment = some i := by
  constructor
  · intro h
    unfold readInvocation at h
    obtain ⟨⟨read, rest⟩, hoptions, h⟩ := bind_eq_ok.mp h
    dsimp only at h
    split at h
    next => split at h <;> cases h
    next name rest _ =>
      obtain ⟨command, hcommand, h⟩ := bind_eq_ok.mp h
      obtain ⟨values, hvalues, h⟩ := bind_eq_ok.mp h
      obtain ⟨configPath, hconfig, h⟩ := bind_eq_ok.mp h
      obtain ⟨model, hmodel, h⟩ := bind_eq_ok.mp h
      obtain ⟨given, hgiven, _, rfl, rfl⟩ :=
        (readOptions_eq_ok_iff plainNames_global true).mp ⟨read, hoptions, hvalues⟩
      obtain ⟨table, own, closed, htable, hown, rfl, hquestion⟩ := readCommand_eq_ok_iff.mp hcommand
      rw [readPath_eq_ok_iff hgiven] at hconfig hmodel
      cases model with
      | none => cases h
      | some modelPath =>
        cases h
        refine ⟨⟨given, name, own, closed⟩, ⟨hgiven, table, htable, hown⟩, rfl,
          CommandLine.invocation?_eq_some_iff.mpr ⟨hquestion, hmodel.1, ?_, hconfig⟩⟩
        exact fun he => hmodel.2 (congrArg some he)
    next => cases h
  · rintro ⟨l, ⟨hgiven, table, htable, hown⟩, rfl, hl⟩
    obtain ⟨hquestion, hmodel, hmodelPath, hconfig, hconfigPath⟩ :=
      CommandLine.invocation?_eq_some_iff.mp hl
    have hends : EndsOptions (l.command :: (l.own.flatMap GivenOption.texts ++
        CommandLine.closing l.closed)) := by
      simpa [EndsOptions] using .inr (isPlain_command htable)
    obtain ⟨read, hoptions, hvalues⟩ := (readOptions_eq_ok_iff plainNames_global true).mpr
      ⟨l.options, hgiven, hends, rfl, rfl⟩
    have hcommand := readCommand_eq_ok_iff.mpr
      ⟨table, l.own, l.closed, htable, hown, rfl, hquestion⟩
    have hreadConfig : readPath environment (l.options.map GivenOption.entry).reverse "config"
        "CLASSDOC_CONFIG" = .ok i.configPath :=
      (readPath_eq_ok_iff hgiven).mpr ⟨hconfig, hconfigPath⟩
    have hreadModel : readPath environment (l.options.map GivenOption.entry).reverse "model"
        "CLASSDOC_MODEL" = .ok (some i.modelPath) :=
      (readPath_eq_ok_iff hgiven).mpr ⟨hmodel, fun he => hmodelPath (Option.some.inj he)⟩
    have hhelp : l.command ≠ "help" := by
      rintro he
      rw [he] at htable
      cases htable
    unfold readInvocation
    rw [CommandLine.arguments, hoptions, ok_bind]
    dsimp only
    split
    next heq => exact absurd (List.cons.inj heq).1 hhelp
    next heq =>
      cases heq
      rw [hcommand, ok_bind, hvalues, ok_bind, hreadConfig, ok_bind, hreadModel, ok_bind]
      rfl
    next heq => cases heq

theorem ofArguments_eq_run_iff {environment : String → Option String} {arguments : List String}
    {i : Invocation} :
    Request.ofArguments environment arguments = .run i ↔
      ∃ l : CommandLine, l.Fits ∧ l.arguments = arguments ∧ l.invocation? environment = some i := by
  rw [← readInvocation_eq_ok_iff]
  unfold Request.ofArguments
  cases readInvocation environment arguments with
  | ok invocation => simp
  | error detour => cases detour <;> simp [Detour.request]

end ClassFacts
