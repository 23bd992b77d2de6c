import ResultShape.Model.Reference
import ResultShape.SqlType
/-! Metadata records: columns, tables, scalar types and other objects with columns. -/
namespace ResultShape

/-- A column of a table, view, function or table type. -/
structure ColumnRecord where
  name : String
  typeName : String
  /-- Set when the type is a user-defined one. -/
  typeSchema : Option String
  maxLength : Option Int32
  precision : Option UInt8
  scale : Option UInt8
  isNullable : Bool
  deriving DecidableEq, Repr, Inhabited

/-- The name of the column's type. -/
def ColumnRecord.type (r : ColumnRecord) : Name := ⟨none, r.typeSchema, r.typeName⟩

/-- What a type reference comes to. -/
structure TypeFacts where
  sqlType : SqlType
  /-- The user-defined type that the type was reached through. -/
  userType : Option Name := none
  isNullable : Option Bool := none
  deriving DecidableEq, Repr, Inhabited

/-- A user-defined scalar type: another name for a built-in type with facets. -/
structure ScalarTypeRecord where
  catalog : Option String
  schema : String
  name : String
  base : String
  maxLength : Option Int32
  precision : Option UInt8
  scale : Option UInt8
  isNullable : Option Bool
  deriving DecidableEq, Repr, Inhabited

def ScalarTypeRecord.facts (r : ScalarTypeRecord) : TypeFacts :=
  { sqlType := .builtin r.base r.maxLength r.precision r.scale
    userType := some ⟨r.catalog, some r.schema, r.name⟩
    isNullable := r.isNullable }

/-- A table or view with its columns in order. -/
structure TableRecord where
  catalog : Option String
  schema : String
  name : String
  isView : Bool
  columns : List ColumnRecord
  deriving DecidableEq, Repr, Inhabited

def TableRecord.kind (r : TableRecord) : ObjectKind := if r.isView then .view else .table

/-- A table-valued function or a table type with its columns in order. -/
structure RowTypeRecord where
  schema : String
  name : String
  columns : List ColumnRecord
  deriving DecidableEq, Repr, Inhabited

end ResultShape
