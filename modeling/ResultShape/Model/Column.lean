import ResultShape.Model.Reference
import ResultShape.SqlType
/-! Columns of a result set: name, origin, type, nullability, and the
document inside a JSON column. -/
namespace ResultShape

/-- Where a projected value is read from. -/
structure ColumnSource where
  schema : Option String := none
  table : Option String := none
  column : Option String := none
  /-- Set when the source is an object of the catalog. -/
  objectKind : Option ObjectKind := none
  deriving DecidableEq, Repr, Inhabited

/-- Two optional names are the same, or both are absent. -/
def sameIfPresent : Option String → Option String → Bool
  | some a, some b => Text.same a b
  | none, none => true
  | _, _ => false

/-- Same schema, table and column. -/
def ColumnSource.sameOrigin (a b : ColumnSource) : Bool :=
  sameIfPresent a.schema b.schema && sameIfPresent a.table b.table &&
    sameIfPresent a.column b.column

/-- A column whose value is a JSON document. -/
structure JsonInfo where
  isArray : Bool := false
  rootName : Option String := none
  includeNulls : Bool := false
  /-- The document comes from a nested `FOR JSON` query. -/
  isNested : Bool := false
  /-- Nothing is known of what the document holds. -/
  shapeUnknown : Bool := false
  deriving DecidableEq, Repr, Inhabited

/-- A projected column. Children are the columns of the document or row set inside it. -/
structure ResultColumn where
  name : String := ""
  /-- The name given with `AS`. -/
  aliasName : Option String := none
  /-- The table alias that the value is read through. -/
  aliasTable : Option String := none
  source : Option ColumnSource := none
  sqlType : Option SqlType := none
  /-- The user-defined type that the type was reached through. -/
  userType : Option Name := none
  isNullable : Option Bool := none
  isAmbiguous : Bool := false
  reference : Option Reference := none
  /-- The folded name of the aggregate that the value is; none for one with a window. -/
  aggregate : Option String := none
  json : Option JsonInfo := none
  children : List ResultColumn := []
  deriving Inhabited

namespace ResultColumn

/-- A column of which nothing is known. -/
def blank : ResultColumn := {}

def typed (sqlType : SqlType) (isNullable : Bool) : ResultColumn :=
  { sqlType := some sqlType, isNullable := some isNullable }

/-- A column of which only the name is known. -/
def named (name : String) : ResultColumn := { name }

def sourceColumn (c : ResultColumn) : Option String := c.source.bind (·.column)

def sourceTable (c : ResultColumn) : Option String := c.source.bind (·.table)

def returnsJson (c : ResultColumn) : Bool := c.json.isSome

/-- An ambiguous column keeps no origin and no type. -/
def markAmbiguous (c : ResultColumn) : ResultColumn :=
  { c with
    isAmbiguous := true
    source := none
    sqlType := none
    userType := none
    isNullable := none }

/-- A column that carries nothing but its name. -/
def isUnresolved (c : ResultColumn) : Bool :=
  c.source.isNone && c.sqlType.isNone && c.reference.isNone && c.json.isNone && c.children.isEmpty

end ResultColumn

end ResultShape
