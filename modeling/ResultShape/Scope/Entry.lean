import ResultShape.Scope.Column
/-! Entries of a scope: the sources that are visible under a name or an alias. -/
namespace ResultShape

/-- What is known of the columns of a source. -/
inductive EntryColumns where
  /-- They are looked up in the catalog, under this name, when they are first asked for. -/
  | pending (table : Name)
  | unknown
  | known (columns : ColumnMap)
  deriving Inhabited

/-- Looks up the columns of an object if that has not been done yet. -/
def EntryColumns.load (catalog : Catalog) (owner : ColumnSource) : EntryColumns → EntryColumns
  | .pending table =>
    match catalog.tableColumns? table with
    | some records => .known (.ofRecords catalog owner records)
    | none => .unknown
  | columns => columns

theorem EntryColumns.load_load (catalog : Catalog) (owner : ColumnSource) (c : EntryColumns) :
    (c.load catalog owner).load catalog owner = c.load catalog owner := by
  cases c with
  | pending table => cases h : catalog.tableColumns? table <;> simp [load, h]
  | unknown => rfl
  | known => rfl

/-- A source of rows that is visible in a scope. -/
structure Entry where
  catalog : Option String := none
  schema : Option String := none
  name : String
  aliasName : Option String := none
  objectKind : Option ObjectKind := none
  columns : EntryColumns := .unknown
  isCte : Bool := false
  /-- The row of this source may be missing, as on the far side of an outer join. -/
  forceNullable : Bool := false
  isFunction : Bool := false
  deriving Inhabited

namespace Entry

/-- A table or view of the catalog. -/
def table (name : Name) (schema : String) (aliasName : Option String) (kind : ObjectKind) : Entry :=
  { catalog := name.catalog
    schema := some schema
    name := name.name
    aliasName
    objectKind := some kind
    columns := .pending { name with schema := some schema } }

/-- A source whose columns are known already, or known to be unknown. -/
def resolved (name : String) (aliasName : Option String) (columns : Option ColumnMap) : Entry :=
  { name, aliasName, columns := columns.elim .unknown .known }

/-- The same source under another alias. -/
def aliased (e : Entry) (aliasName : String) : Entry := { e with aliasName := some aliasName }

def markNullable (e : Entry) : Entry := { e with forceNullable := true }

/-- The alias, or the name where there is none. -/
def visibleName (e : Entry) : String := e.aliasName.getD e.name

/-- The source of its columns, before a column is chosen. -/
def owner (e : Entry) : ColumnSource :=
  { schema := e.schema, table := some e.name, objectKind := e.objectKind }

/-- The columns, if they are loaded and known. -/
def columnMap? (e : Entry) : Option ColumnMap :=
  match e.columns with
  | .known columns => some columns
  | _ => none

/-- The entry with its columns looked up. -/
def load (catalog : Catalog) (e : Entry) : Entry :=
  { e with columns := e.columns.load catalog e.owner }

def column? (e : Entry) (name : String) : Option ColumnInfo :=
  e.columnMap?.bind (·.get? (Text.fold name))

def hasColumn (e : Entry) (name : String) : Bool := (e.column? name).isSome

/-- A column read through the entry. One that it does not list has the entry
as its source, and no type. -/
def project (e : Entry) (name : String) : ResultColumn :=
  match e.column? name with
  | some info => info.project e.visibleName e.forceNullable
  | none =>
    { name
      aliasTable := some e.visibleName
      source := some { e.owner with column := some name }
      isNullable := if e.forceNullable then some true else none }

/-- All columns in stored order, if they are known. -/
def projectAll? (e : Entry) : Option (List ResultColumn) :=
  e.columnMap?.map fun columns => columns.values.map (·.project e.visibleName e.forceNullable)

theorem load_load (catalog : Catalog) (e : Entry) :
    (e.load catalog).load catalog = e.load catalog :=
  congrArg (fun columns => { e with columns }) (e.columns.load_load catalog e.owner)

end Entry

end ResultShape
