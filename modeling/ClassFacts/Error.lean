import ClassFacts.Hierarchy
import ClassFacts.Json.Fault

namespace ClassFacts

/-- Why a file cannot be read as text. -/
inductive FileFault
  | notFound
  | isDirectory
  | notDirectory
  | notText
  | zeroInName
  | nameTooLong
  | other (detail : String)
  deriving DecidableEq, Repr

def FileFault.message : FileFault → String
  | .notFound => "No such file or directory (os error 2)"
  | .isDirectory => "Is a directory (os error 21)"
  | .notDirectory => "Not a directory (os error 20)"
  | .notText => "stream did not contain valid UTF-8"
  | .zeroInName => "file name contained an unexpected NUL byte"
  | .nameTooLong => "File name too long (os error 36)"
  | .other detail => detail

/-- What can go wrong in finding out about classes. -/
inductive Error
  | file (fault : FileFault)
  | json (fault : Json.Fault)
  | yaml
  | index (detail : String)
  | tooDeep (fault : TooDeep)
  | general (detail : String)
  deriving DecidableEq, Repr

def Json.Fault.message : Json.Fault → String
  | .malformed => "malformed text"
  | .ended => "unexpected end of text"
  | .mismatch cause => cause.message

def Error.message : Error → String
  | .file fault => "IO Error: " ++ fault.message
  | .json fault => "JSON Error: " ++ fault.message
  | .yaml => "YAML Error: malformed text"
  | .index detail => "Index Error: " ++ detail
  | .tooDeep fault =>
    "Structural Integrity Error: hierarchy of '" ++ fault.className ++ "' exceeds depth " ++
      toString fault.depth
  | .general detail => "General Error: " ++ detail

/-- Why a command has no answer. -/
inductive CommandError
  | core (e : Error)
  | failed (detail : String)
  deriving DecidableEq, Repr

def CommandError.message : CommandError → String
  | .core e => e.message
  | .failed detail => "Operation failed: " ++ detail

end ClassFacts
