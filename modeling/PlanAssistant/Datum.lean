import PlanAssistant.Text.Quoted
import PlanAssistant.Decimal.Shortest

/-!
Values of the data formats: what a JSON or TOML document holds before it is checked against a schema.
A record keeps its fields in the order written; a repeated key counts with its last value.
-/
namespace PlanAssistant

inductive Datum where
  | null
  | bool (value : Bool)
  | int (value : Int)
  | float (value : Float)
  | text (value : String)
  | moment (written : String)
  | list (items : List Datum)
  | record (fields : List (String × Datum))
deriving Inhabited

namespace Datum

/-- The last value given for a key. -/
def lookup (key : String) (fields : List (String × Datum)) : Option Datum :=
  (fields.reverse.find? (·.1 == key)).map (·.2)

def asText? : Datum → Option String
  | text s => some s
  | _ => none

/-- Whether a value counts as true: not empty, not zero, not absent. -/
def truthy : Datum → Bool
  | null => false
  | bool b => b
  | int n => n != 0
  | float x => x != 0
  | text s => !s.isEmpty
  | moment _ => true
  | list items => !items.isEmpty
  | record fields => !fields.isEmpty

variable [Interpreter]

mutual

/-- The value as it stands inside a list or a record. -/
def inner : Datum → String
  | null => "None"
  | bool b => if b then "True" else "False"
  | int n => toString n
  | float x => Decimal.text x
  | text s => Text.quoted s
  | moment s => s
  | list items => "[" ++ ", ".intercalate (innerItems items) ++ "]"
  | record fields => "\x7b" ++ ", ".intercalate (innerFields fields) ++ "\x7d"

def innerItems : List Datum → List String
  | [] => []
  | item :: rest => inner item :: innerItems rest

def innerFields : List (String × Datum) → List String
  | [] => []
  | (key, value) :: rest => (Text.quoted key ++ ": " ++ inner value) :: innerFields rest

end

/-- The value as it stands in a text: a text as it is, anything else as inside a list. -/
def display : Datum → String
  | text s => s
  | value => inner value

end Datum
end PlanAssistant
