import ClassFacts.CommandLine

namespace ClassFacts

/-- The text of a file on disk. -/
def readFile (path : String) : IO (Except FileFault String) := do
  try
    match String.fromUTF8? (← IO.FS.readBinFile path) with
    | some text => return .ok text
    | none => return .error .notText
  catch
    | .noFileOrDirectory .. => return .error .notFound
    | e => return .error (.other (toString e))

/-- The files that a request needs, by path. -/
def readFiles (request : Request) : IO (List (String × Except FileFault String)) :=
  match request with
  | .run invocation =>
    (invocation.configPath.toList ++ [invocation.modelPath]).mapM fun path => do
      return (path, ← readFile path)
  | _ => return []

end ClassFacts

open ClassFacts in
def main (arguments : List String) : IO UInt32 := do
  let settings ← ["CLASSDOC_MODEL", "CLASSDOC_CONFIG"].mapM fun name => do
    return (name, ← IO.getEnv name)
  let environment (name : String) : Option String := (settings.lookup name).join
  let files ← readFiles (.ofArguments environment arguments)
  let readText (path : String) : Except FileFault String :=
    (files.lookup path).getD (.error .notFound)
  let outcome := runProgram environment readText arguments
  (← IO.getStdout).putStr outcome.output
  (← IO.getStderr).putStr outcome.complaint
  return UInt32.ofNat outcome.status
