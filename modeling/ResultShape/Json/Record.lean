import ResultShape.Json.Basic
/-! Records read from documents: fields by key from an object, or by position from an array. -/
namespace ResultShape

/-- The cells of a record that are still to be read. -/
inductive Row (α : Type) where
  /-- An object: cells are found by key, and a key that no field asks for is passed over. -/
  | named (cells : List (String × α))
  /-- An array: cells come in the order of the fields, and none may be left over. -/
  | listed (cells : List α)

/-- Reads fields from a row, in the order in which the record declares them. -/
abbrev FieldReader (α β : Type) := StateT (Row α) Option β

namespace FieldReader

variable {α β : Type}

/-- The cell of the next field, if the row has one. -/
def cell (key : String) : FieldReader α (Option α) := fun row =>
  match row with
  | .named cells => some (cells.lookup key, row)
  | .listed [] => some (none, row)
  | .listed (c :: cells) => some (some c, .listed cells)

/-- A field that has to be there. -/
def required (key : String) (read : α → Option β) : FieldReader α β := do
  match ← cell key with
  | some c => read c
  | none => failure

/-- A field with a value of its own where the row has none. -/
def withDefault (key : String) (default : β) (read : α → Option β) : FieldReader α β := do
  match ← cell key with
  | some c => read c
  | none => return default

/-- A field that may be absent. -/
def optional (key : String) (read : α → Option (Option β)) : FieldReader α (Option β) :=
  withDefault key none read

/-- Reads a record; cells left over in an array are a fault. -/
def run? (reader : FieldReader α β) (row : Row α) : Option β :=
  match reader row with
  | some (b, .named _) => some b
  | some (b, .listed []) => some b
  | _ => none

end FieldReader

namespace Json

/-- A value that may be null. -/
def nullable {α : Type} (read : Json → Option α) : Json → Option (Option α)
  | .null => some none
  | j => (read j).map some

/-- A record from an object or an array of values. -/
def record? {β : Type} (reader : FieldReader Json β) : Json → Option β
  | .object members => reader.run? (.named members)
  | .array items => reader.run? (.listed items)
  | _ => none

/-- A cell of a record that holds records of its own kind: the value, and
its reading as a list of them. -/
structure Cell (ρ : Type) where
  value : Json
  records? : Option (List ρ)

mutual

/-- A record whose fields may hold lists of such records. -/
def tree? {ρ : Type} (reader : FieldReader (Cell ρ) ρ) : Json → Option ρ
  | .object members => reader.run? (.named (memberCells reader members))
  | .array items => reader.run? (.listed (itemCells reader items))
  | _ => none

/-- A list of such records. -/
def trees? {ρ : Type} (reader : FieldReader (Cell ρ) ρ) : Json → Option (List ρ)
  | .array items => allTrees? reader items
  | _ => none

def allTrees? {ρ : Type} (reader : FieldReader (Cell ρ) ρ) : List Json → Option (List ρ)
  | [] => some []
  | j :: js => do return (← tree? reader j) :: (← allTrees? reader js)

def memberCells {ρ : Type} (reader : FieldReader (Cell ρ) ρ) :
    List (String × Json) → List (String × Cell ρ)
  | [] => []
  | (key, j) :: rest => (key, ⟨j, trees? reader j⟩) :: memberCells reader rest

def itemCells {ρ : Type} (reader : FieldReader (Cell ρ) ρ) : List Json → List (Cell ρ)
  | [] => []
  | j :: rest => ⟨j, trees? reader j⟩ :: itemCells reader rest

end

end Json

end ResultShape
