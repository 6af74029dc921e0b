import ClassFacts.Documented
import ClassFacts.Inspect
import ClassFacts.Json.Printer

namespace ClassFacts

/-- One question about a model. -/
inductive Command
  | fields (className : String)
  | enumSample (className : String) (nameOnly : Bool)
  | typeArguments (className fieldName : String)
  | groups (className methodName : String) (parameter : Option String)
  deriving DecidableEq, Repr

def Command.answer (s : Session) : Command → Logged (Except CommandError Json.Value)
  | .fields className => s.fields className
  | .enumSample className nameOnly => s.enumSample className nameOnly
  | .typeArguments className fieldName => s.typeArguments className fieldName
  | .groups className methodName parameter => s.groups className methodName parameter

/-- What a command line asks for. -/
structure Invocation where
  modelPath : String
  configPath : Option String
  command : Command
  deriving DecidableEq, Repr

/-- How the arguments are understood. -/
inductive Request
  | run (invocation : Invocation)
  | version
  | help
  | misuse
  deriving DecidableEq, Repr

/-- What an option takes. A path is not empty. -/
inductive OptionKind
  | flag
  | text
  | path
  deriving DecidableEq, Repr

def OptionKind.accepts : OptionKind → String → Bool
  | .path, value => value ≠ ""
  | _, _ => true

/-- The options of a command by name. -/
abbrev OptionTable := List (String × OptionKind)

def globalOptions : OptionTable :=
  [("model", .path), ("config", .path), ("log-level", .text)]

def commandOptions? : String → Option OptionTable
  | "fields" => some [("class", .text)]
  | "enum-sample" => some [("class", .text), ("name-only", .flag)]
  | "type-args" => some [("class", .text), ("field", .text)]
  | "groups" => some [("class", .text), ("method", .text), ("param", .text)]
  | _ => none

/-- One argument by its form. -/
inductive Argument
  | long (name : String) (value : Option String)
  | short (letters : List Char)
  | escape
  | plain (text : String)
  deriving DecidableEq, Repr

def Argument.ofText (text : String) : Argument :=
  match text.toList with
  | ['-', '-'] => .escape
  | '-' :: '-' :: rest =>
    let name := rest.takeWhile (· ≠ '=')
    match rest.dropWhile (· ≠ '=') with
    | [] => .long (String.ofList name) none
    | _ :: value => .long (String.ofList name) (some (String.ofList value))
  | '-' :: c :: rest => .short (c :: rest)
  | _ => .plain text

/-- Why the arguments are not a plain run. -/
inductive Detour
  | version
  | help
  | misuse
  deriving DecidableEq, Repr

def Detour.request : Detour → Request
  | .version => .version
  | .help => .help
  | .misuse => .misuse

abbrev OptionValues := List (String × String)

/-- The options read so far. One whose value is an argument of its own is checked only when the
next option comes or all else has been read. -/
structure OptionsRead where
  checked : OptionValues
  unchecked : Option (String × String)
  deriving DecidableEq, Repr

def OptionsRead.empty : OptionsRead :=
  ⟨[], none⟩

/-- Adds an option with a value that suits it. Each option comes once. -/
def addOption (table : OptionTable) (values : OptionValues) (name value : String) :
    Except Detour OptionValues :=
  match table.lookup name with
  | some kind =>
    if kind.accepts value && (values.lookup name).isNone then .ok ((name, value) :: values)
    else .error .misuse
  | none => .error .misuse

def OptionsRead.check (table : OptionTable) (read : OptionsRead) : Except Detour OptionValues :=
  match read.unchecked with
  | some (name, value) => addOption table read.checked name value
  | none => .ok read.checked

/-- Reads options up to the first argument that is none; the rest starts with that argument.
`outermost` options include the version. -/
def readOptions (table : OptionTable) (outermost : Bool) :
    List String → OptionsRead → Except Detour (OptionsRead × List String)
  | [], read => .ok (read, [])
  | text :: rest, read =>
    match Argument.ofText text with
    | .plain _ | .escape => .ok (read, text :: rest)
    | .short ('h' :: _) | .long "help" none => do
      let _ ← read.check table
      throw .help
    | .short ('V' :: _) | .long "version" none => do
      let _ ← read.check table
      throw (if outermost then .version else .misuse)
    | .short _ => .error .misuse
    | .long name (some value) =>
      match table.lookup name with
      | some .text | some .path => do
        let values ← addOption table (← read.check table) name value
        readOptions table outermost rest ⟨values, none⟩
      | _ => .error .misuse
    | .long name none =>
      match table.lookup name, rest with
      | some .flag, rest => do
        let values ← addOption table (← read.check table) name ""
        readOptions table outermost rest ⟨values, none⟩
      | some _, next :: rest =>
        match Argument.ofText next with
        | .plain value => do
          readOptions table outermost rest ⟨← read.check table, some (name, value)⟩
        | _ => .error .misuse
      | _, _ => .error .misuse

def need (values : OptionValues) (name : String) : Except Detour String :=
  match values.lookup name with
  | some value => .ok value
  | none => .error .misuse

/-- Reads a command and its own options. Nothing else follows them. -/
def readCommand (name : String) (arguments : List String) : Except Detour Command := do
  let some table := commandOptions? name | throw .misuse
  let (read, rest) ← readOptions table false arguments .empty
  let values ← read.check table
  if rest ≠ [] ∧ rest ≠ ["--"] then throw .misuse
  let className ← need values "class"
  match name with
  | "fields" => return .fields className
  | "enum-sample" => return .enumSample className (values.lookup "name-only").isSome
  | "type-args" => return .typeArguments className (← need values "field")
  | _ => return .groups className (← need values "method") (values.lookup "param")

/-- A path from an option, or else from the variable that stands in for it. It is not empty. -/
def readPath (environment : String → Option String) (values : OptionValues)
    (name variableName : String) : Except Detour (Option String) :=
  match (values.lookup name).or (environment variableName) with
  | some "" => .error .misuse
  | path => .ok path

def readInvocation (environment : String → Option String) (arguments : List String) :
    Except Detour Invocation := do
  let (read, rest) ← readOptions globalOptions true arguments .empty
  match rest with
  | "help" :: topic =>
    match topic with
    | [] | ["help"] => throw .help
    | [name] => throw (if (commandOptions? name).isSome then .help else .misuse)
    | _ => throw .misuse
  | name :: rest =>
    let command ← readCommand name rest
    let values ← read.check globalOptions
    let configPath ← readPath environment values "config" "CLASSDOC_CONFIG"
    match ← readPath environment values "model" "CLASSDOC_MODEL" with
    | some modelPath => return ⟨modelPath, configPath, command⟩
    | none => throw .misuse
  | [] => throw .misuse

def Request.ofArguments (environment : String → Option String) (arguments : List String) :
    Request :=
  match readInvocation environment arguments with
  | .ok invocation => .run invocation
  | .error detour => detour.request

/-- Reads the file at a path in the format that the path names. -/
def load {α : Type} [Documented α] (readText : String → Except FileFault String)
    (path : String) : Except Error α :=
  match readText path with
  | .ok text => Documented.read (.ofPath path) text
  | .error fault => .error (.file fault)

/-- Loads the configuration, then the model, and answers the question. -/
def Invocation.answer (readText : String → Except FileFault String) (i : Invocation) :
    Except CommandError Json.Value := do
  let config ←
    match i.configPath with
    | some path => (load readText path).mapError CommandError.core
    | none => pure Config.standard
  let classes ← (load readText i.modelPath).mapError CommandError.core
  (i.command.answer ⟨classes, config⟩).result

/-- What a run leaves behind. -/
structure Outcome where
  status : Nat
  output : String
  complaint : String
  deriving DecidableEq, Repr

def versionText : String :=
  "classdoc-cli 0.0.1\n"

def helpText : String :=
  "Class-model introspection for API docs\n\n" ++
    "Usage: classdoc [--model MODEL] [--config CONFIG] [--log-level LEVEL] COMMAND\n\n" ++
    "Commands:\n" ++
    "  fields       Print the flattened field list of a class\n" ++
    "  enum-sample  Print a representative value for an enum\n" ++
    "  type-args    Print the actual type arguments of a field's type\n" ++
    "  groups       Print validation groups of a method's parameters\n"

/-- Runs the program on its environment, arguments and files. -/
def runProgram (environment : String → Option String)
    (readText : String → Except FileFault String) (arguments : List String) : Outcome :=
  match Request.ofArguments environment arguments with
  | .version => ⟨0, versionText, ""⟩
  | .help => ⟨0, helpText, ""⟩
  | .misuse => ⟨2, "", helpText⟩
  | .run invocation =>
    match invocation.answer readText with
    | .ok v => ⟨0, v.pretty ++ "\n", ""⟩
    | .error e => ⟨1, "", "Error: " ++ e.message ++ "\n"⟩

end ClassFacts
