import ResultShape.Catalog.Record
import ResultShape.Keyed
/-! Snapshots: metadata records under the folded keys of their names. -/
namespace ResultShape

/-- The records of a database, each under `schema.name` and, where it has a catalog, under
`catalog.schema.name` too. -/
structure Snapshot where
  scalarTypes : Keyed String ScalarTypeRecord := .empty
  tables : Keyed String TableRecord := .empty
  functions : Keyed String RowTypeRecord := .empty
  tableTypes : Keyed String RowTypeRecord := .empty
  /-- How many records of the document did not read. -/
  skipped : Nat := 0
  deriving Inhabited

namespace Snapshot

def under {α : Type} (records : Keyed String α) (catalog : Option String) (schema name : String)
    (record : α) : Keyed String α :=
  let records := match catalog with
    | some catalog => records.insert (Name.fullKeyOf catalog schema name) record
    | none => records
  records.insert (Name.keyOf schema name) record

def addScalarType (s : Snapshot) (r : ScalarTypeRecord) : Snapshot :=
  { s with scalarTypes := under s.scalarTypes r.catalog r.schema r.name r }

def addTable (s : Snapshot) (r : TableRecord) : Snapshot :=
  { s with tables := under s.tables r.catalog r.schema r.name r }

def addFunction (s : Snapshot) (r : RowTypeRecord) : Snapshot :=
  { s with functions := s.functions.insert (Name.keyOf r.schema r.name) r }

def addTableType (s : Snapshot) (r : RowTypeRecord) : Snapshot :=
  { s with tableTypes := s.tableTypes.insert (Name.keyOf r.schema r.name) r }

/-- A table or view: by its full name where a catalog is given and known,
else by schema and name. -/
def table? (s : Snapshot) (schema name : String) (catalog : Option String) : Option TableRecord :=
  (catalog.bind fun catalog => s.tables.get? (Name.fullKeyOf catalog schema name)).or
    (s.tables.get? (Name.keyOf schema name))

def tableColumns? (s : Snapshot) (schema name : String) (catalog : Option String) :
    Option (List ColumnRecord) :=
  (s.table? schema name catalog).map (·.columns)

def objectKind? (s : Snapshot) (schema name : String) (catalog : Option String) :
    Option ObjectKind :=
  (s.table? schema name catalog).map (·.kind)

def functionColumns? (s : Snapshot) (schema name : String) : Option (List ColumnRecord) :=
  (s.functions.get? (Name.keyOf schema name)).map (·.columns)

def tableTypeColumns? (s : Snapshot) (schema name : String) : Option (List ColumnRecord) :=
  (s.tableTypes.get? (Name.keyOf schema name)).map (·.columns)

/-- A scalar type by a name with a schema; a name with a catalog is found
under its full key only. -/
def scalarType? (s : Snapshot) (n : Name) : Option TypeFacts := do
  let schema ← n.schema
  let key := match n.catalog with
    | some catalog => Name.fullKeyOf catalog schema n.name
    | none => Name.keyOf schema n.name
  return (← s.scalarTypes.get? key).facts

end Snapshot

end ResultShape
