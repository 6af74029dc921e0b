import ClassFacts.Decimal.Layout
import ClassFacts.Keyed

namespace ClassFacts.Json

/-- A JSON value; the entries of an object keep their order. -/
inductive Value
  | null
  | boolean (value : Bool)
  | integer (value : Int)
  | float (value : Decimal.Binary64)
  | text (value : String)
  | array (items : List Value)
  | object (entries : List (String × Value))
  deriving Repr

instance : Inhabited Value := ⟨.null⟩

def Value.ofList {α : Type} (f : α → Value) (items : List α) : Value :=
  .array (items.map f)

def Value.ofOption {α : Type} (f : α → Value) : Option α → Value
  | none => .null
  | some x => f x

/-- The entry of an object. -/
def Value.get? (key : String) : Value → Option Value
  | .object entries => Entries.get? key entries
  | _ => none

end ClassFacts.Json
