import ResultShape.Name
/-! References to the objects that a column, a result set or a routine depends on. -/
namespace ResultShape

inductive ObjectKind where
  | table
  | view
  | function
  | procedure
  | tableType
  | userDefinedType
  deriving DecidableEq, Repr, Inhabited

def ObjectKind.all : List ObjectKind :=
  [.table, .view, .function, .procedure, .tableType, .userDefinedType]

def ObjectKind.text : ObjectKind → String
  | .table => "Table"
  | .view => "View"
  | .function => "Function"
  | .procedure => "Procedure"
  | .tableType => "TableType"
  | .userDefinedType => "UserDefinedType"

def ObjectKind.ofText? (s : String) : Option ObjectKind := all.find? (·.text = s)

theorem ObjectKind.ofText?_text (k : ObjectKind) : ofText? k.text = some k := by cases k <;> decide

/-- An object of some kind, named by up to three parts. -/
structure Reference where
  kind : ObjectKind
  catalog : Option String
  schema : Option String
  name : String
  deriving DecidableEq, Repr, Inhabited

namespace Reference

def ofName (kind : ObjectKind) (name : Name) : Reference :=
  ⟨kind, name.catalog, name.schema, name.name⟩

def toName (r : Reference) : Name := ⟨r.catalog, r.schema, r.name⟩

/-- Kind, catalog, schema and name. -/
abbrev Identity := ObjectKind × String × String × String

/-- What makes two references one: the kind, and the folded parts of the name, an
absent part counting as empty. -/
def identity (r : Reference) : Identity :=
  (r.kind, Text.fold (r.catalog.getD ""), Text.fold (r.schema.getD ""), Text.fold r.name)

def text (r : Reference) : String := r.kind.text ++ " " ++ r.toName.text

end Reference

/-- A procedure that a routine executes. -/
structure ExecutedRoutine where
  catalog : Option String
  schema : String
  name : String
  deriving DecidableEq, Repr, Inhabited

def ExecutedRoutine.reference (e : ExecutedRoutine) : Reference :=
  ⟨.procedure, e.catalog, some e.schema, e.name⟩

end ResultShape
