import ResultShape.Catalog.Basic
import ResultShape.Keyed
import ResultShape.Model.Column
import ResultShape.Sql.Statement
/-! Columns of a source of rows, as tables, functions, derived tables and CTEs all describe them. -/
namespace ResultShape

/-- What is known of one column of a source. -/
structure ColumnInfo where
  name : String
  source : Option ColumnSource := none
  sqlType : Option SqlType := none
  userType : Option Name := none
  isNullable : Option Bool := none
  reference : Option Reference := none
  json : Option JsonInfo := none
  children : List ResultColumn := []
  deriving Inhabited

/-- The columns of a source under their folded names, in stored order. -/
abbrev ColumnMap := Keyed String ColumnInfo

namespace ColumnInfo

/-- A column by its metadata record; the owner is the object that it belongs to. -/
def ofRecord (catalog : Catalog) (owner : ColumnSource) (r : ColumnRecord) : ColumnInfo :=
  let facts := catalog.resolveColumn r
  { name := r.name
    source := some { owner with column := some r.name }
    sqlType := some facts.sqlType
    userType := facts.userType
    isNullable := facts.isNullable }

/-- A column declared where it is used; it may be null unless the declaration says otherwise. -/
def ofDefinition (catalog : Catalog) (owner : String) (d : ColumnDefinition) : ColumnInfo :=
  let facts := catalog.resolveType d.type
  { name := d.name
    source := some { table := some owner, column := some d.name }
    sqlType := some facts.sqlType
    userType := facts.userType
    isNullable := some (d.nullable.getD true) }

/-- A column that a query projects, under the name it is read by from outside. -/
def ofColumn (name : String) (c : ResultColumn) : ColumnInfo :=
  { name
    source := c.source
    sqlType := c.sqlType
    userType := c.userType
    isNullable := c.isNullable
    reference := c.reference
    json := c.json
    children := c.children }

def typed (name : String) (sqlType : SqlType) (isNullable : Bool) : ColumnInfo :=
  { name, sqlType := some sqlType, isNullable := some isNullable }

/-- The column read through a table alias; in a row that may be missing it may be null. -/
def project (info : ColumnInfo) (aliasTable : String) (forceNullable : Bool) : ResultColumn :=
  { name := info.name
    aliasTable := some aliasTable
    source := info.source
    sqlType := info.sqlType
    userType := info.userType
    isNullable := if forceNullable then some true else info.isNullable
    reference := info.reference
    json := info.json
    children := info.children }

end ColumnInfo

namespace ColumnMap

/-- A column whose name was there before replaces that one in its place. -/
def ofInfos (infos : List ColumnInfo) : ColumnMap :=
  .ofList (infos.map fun i => (Text.fold i.name, i))

def ofRecords (catalog : Catalog) (owner : ColumnSource)
    (records : List ColumnRecord) : ColumnMap :=
  ofInfos (records.map (.ofRecord catalog owner))

def ofDefinitions (catalog : Catalog) (owner : String)
    (definitions : List ColumnDefinition) : ColumnMap :=
  ofInfos (definitions.map (.ofDefinition catalog owner))

def addColumns (renames : List String) : List ResultColumn → ColumnMap → ColumnMap
  | [], m => m
  | c :: cs, m =>
    let name := renames.head?.getD c.name
    addColumns renames.tail cs (m.insertNew (Text.fold name) (.ofColumn name c))

/-- Projected columns, renamed by position as far as names are given; of two
with one name the first stays. -/
def ofColumns (columns : List ResultColumn) (renames : List String) : ColumnMap :=
  addColumns renames columns .empty

end ColumnMap

end ResultShape
