import ClassFacts.Decimal.Layout
import ClassFacts.Text.Quoted

namespace ClassFacts.Json

/-- What stands in a text where something else was expected. -/
inductive Found
  | null
  | boolean (value : Bool)
  | integer (value : Int)
  | float (value : Decimal.Binary64)
  | text (value : String)
  | sequence
  | mapping
  | bareVariant
  deriving DecidableEq, Repr

inductive Expected
  | text
  | sequence
  | set
  | mapping
  | count
  | nothing
  | record (title : String)
  | payload
  deriving DecidableEq, Repr

/-- How a text that is well formed so far departs from the wanted shape. -/
inductive Mismatch
  | wrongType (found : Found) (expected : Expected)
  | wrongValue (found : Int) (expected : Expected)
  | wrongLength (length : Nat) (title : String) (size : Nat)
  | missing (key : String)
  | duplicate (key : String)
  | unknownVariant (name : String) (known : List String)
  deriving DecidableEq, Repr

/-- Why reading stopped: at a character that cannot stand there, at the end of the text, or at
something of the wrong shape. -/
inductive Fault
  | malformed
  | ended
  | mismatch (cause : Mismatch)
  deriving DecidableEq, Repr

def Found.describe : Found → String
  | .null => "null"
  | .boolean value => "boolean `" ++ (if value then "true" else "false") ++ "`"
  | .integer value => "integer `" ++ toString value ++ "`"
  | .float value => "floating point `" ++ String.ofList value.text ++ "`"
  | .text value => "string " ++ Text.quoted value
  | .sequence => "sequence"
  | .mapping => "map"
  | .bareVariant => "unit variant"

def Expected.describe : Expected → String
  | .text => "a string"
  | .sequence => "a sequence"
  | .set => "a set"
  | .mapping => "a map"
  | .count => "usize"
  | .nothing => "unit"
  | .record title => "struct " ++ title
  | .payload => "newtype variant"

def tick (name : String) : String :=
  "`" ++ name ++ "`"

def oneOf : List String → String
  | [] => "there are no variants"
  | [a] => "expected " ++ tick a
  | [a, b] => "expected " ++ tick a ++ " or " ++ tick b
  | known => "expected one of " ++ String.intercalate ", " (known.map tick)

def Mismatch.message : Mismatch → String
  | .wrongType found expected =>
    "invalid type: " ++ found.describe ++ ", expected " ++ expected.describe
  | .wrongValue found expected =>
    "invalid value: integer " ++ tick (toString found) ++ ", expected " ++ expected.describe
  | .wrongLength length title size =>
    "invalid length " ++ toString length ++ ", expected struct " ++ title ++ " with " ++
      toString size ++ " element" ++ (if size = 1 then "" else "s")
  | .missing key => "missing field " ++ tick key
  | .duplicate key => "duplicate field " ++ tick key
  | .unknownVariant name known => "unknown variant " ++ tick name ++ ", " ++ oneOf known

end ClassFacts.Json
