import ResultShape.Sql.Statement
/-! Routines: stored procedures and functions. -/
namespace ResultShape

inductive RoutineKind where
  | procedure
  | scalarFunction
  | tableFunction
  deriving DecidableEq, Repr, Inhabited

structure Parameter where
  name : String
  type : DataType
  isOutput : Bool
  isReadonly : Bool

structure Routine where
  kind : RoutineKind
  name : Name
  parameters : List Parameter
  body : List Statement
  /-- Name and columns of the table in `RETURNS @t TABLE (…)`. -/
  returnTable : Option (String × List ColumnDefinition)
  sourceText : Option String

end ResultShape
