import ResultShape.Decimal.Basic
import ResultShape.Keyed
/-! JSON documents: values, and the members of an object. -/
namespace ResultShape

/-- A JSON value. Integers are kept apart from the other numbers, as
documents ask for one or the other. -/
inductive Json where
  | null
  | bool (b : Bool)
  | integer (n : Int)
  | real (d : Decimal)
  | text (s : String)
  | array (items : List Json)
  | object (members : List (String × Json))
  deriving Inhabited

namespace Json

/-- The value of the first member with this key. -/
def get? : Json → String → Option Json
  | .object members, key => members.lookup key
  | _, _ => none

def bool? : Json → Option Bool
  | .bool b => some b
  | _ => none

def integer? : Json → Option Int
  | .integer n => some n
  | _ => none

def text? : Json → Option String
  | .text s => some s
  | _ => none

def array? : Json → Option (List Json)
  | .array items => some items
  | _ => none

/-- An array whose items all read. -/
def list? {α : Type} (read : Json → Option α) (j : Json) : Option (List α) :=
  j.array? >>= List.mapM read

/-- An object without the members that are absent. -/
def ofFields (fields : List (String × Option Json)) : Json :=
  .object (fields.filterMap fun f => f.2.map (f.1, ·))

/-- An absent value is written as null. -/
def ofOption {α : Type} (write : α → Json) : Option α → Json
  | none => .null
  | some a => write a

end Json

end ResultShape
