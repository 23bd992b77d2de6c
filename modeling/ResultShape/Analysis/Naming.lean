import ResultShape.Model.Column
/-! Column names: each column of a result set gets a name that no column before it has. -/
namespace ResultShape.ResultColumn

def nonempty (s : String) : Option String := if s.isEmpty then none else some s

/-- The name a column asks for: its alias, its own name, the column, the table alias or the object
it comes from, or else its position. -/
def candidate (c : ResultColumn) (position : Nat) : String :=
  [c.aliasName, some c.name, c.sourceColumn, c.aliasTable, c.reference.map (·.name)].findSome?
    (·.bind nonempty)
    |>.getD ("Column" ++ toString (position + 1))

/-- A name is taken when a used name folds to the same text. -/
def isFree (used : List String) (name : String) : Bool := !used.contains (Text.fold name)

/-- The name with the least number from two on that makes it free. -/
def numbered (used : List String) (base : String) : String :=
  (((List.range (used.length + 1)).map fun i => base ++ toString (i + 2)).find?
    (isFree used)).getD base

/-- The name if it is free; else the name behind its table, table alias or
object; else the numbered name. -/
def freeName (used : List String) (c : ResultColumn) (base : String) : String :=
  if isFree used base then base
  else
    let behind := [c.sourceTable, c.aliasTable, c.reference.map (·.name)].filterMap id
    ((behind.map (· ++ "_" ++ base)).find? (isFree used)).getD (numbered used base)

def assignFrom : Nat → List String → List ResultColumn → List ResultColumn
  | _, _, [] => []
  | position, used, c :: cs =>
    let name := c.freeName used (c.candidate position)
    { c with name } :: assignFrom (position + 1) (Text.fold name :: used) cs

/-- Names the columns in turn. -/
def assignNames (columns : List ResultColumn) : List ResultColumn := assignFrom 0 [] columns

/-- The names that the columns ask for. -/
def candidates (columns : List ResultColumn) : List String :=
  columns.mapIdx fun position c => c.candidate position

end ResultShape.ResultColumn
