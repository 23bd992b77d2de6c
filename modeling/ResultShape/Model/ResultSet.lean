import ResultShape.Model.Column
import ResultShape.Model.JsonField
/-! Result sets: the columns that a query sends, and the document it sends them as. -/
namespace ResultShape

structure ResultSet where
  columns : List ResultColumn := []
  returnsJson : Bool := false
  returnsJsonArray : Bool := false
  jsonRootName : Option String := none
  jsonIncludeNulls : Bool := false
  /-- Absent when it cannot be told whether there is one row. -/
  jsonSingleRowGuaranteed : Option Bool := none
  hasWildcardProjection : Bool := false
  jsonShape : List JsonField := []
  /-- The object whose rows the set shows, such as the target of a `MERGE`. -/
  reference : Option Reference := none
  deriving Inhabited

/-- The first column of this name. -/
def ResultSet.column? (r : ResultSet) (name : String) : Option ResultColumn :=
  r.columns.find? fun c => Text.same c.name name

def ResultSet.columnNames (r : ResultSet) : List String := r.columns.map (·.name)

end ResultShape
