import ResultShape.Catalog.Snapshot
import ResultShape.Config
import ResultShape.Sql.DataType
/-! Catalogs: a snapshot with the schemas that complete a name. -/
namespace ResultShape

structure Catalog where
  snapshot : Snapshot
  /-- The schema of a name without one. -/
  defaultSchema : String
  /-- The schema of the built-in types. -/
  systemSchema : String
  deriving Inhabited

namespace Catalog

def ofSnapshot (snapshot : Snapshot) (config : Config) : Catalog :=
  ⟨snapshot, config.defaultSchema, config.systemSchema⟩

/-- A catalog that knows the built-in types only. -/
def builtinOnly (config : Config) : Catalog := ofSnapshot {} config

/-- The same metadata, with another schema for names without one. -/
def withDefaultSchema (c : Catalog) (schema : String) : Catalog :=
  { c with defaultSchema := schema }

/-- A name in the system schema, or the name of a built-in type without a schema. -/
def isBuiltin (c : Catalog) (n : Name) : Bool :=
  match n.schema with
  | some schema => Text.same schema c.systemSchema
  | none => SqlType.isBuiltin n.name

/-- The scalar type of a name: with its catalog first, then with schema and name alone. -/
def scalarType? (c : Catalog) (n : Name) : Option TypeFacts :=
  let schema := n.schema.getD c.defaultSchema
  (n.catalog.bind fun catalog => c.snapshot.scalarType? ⟨some catalog, some schema, n.name⟩).or
    (c.snapshot.scalarType? ⟨none, some schema, n.name⟩)

/-- What a type name with facets comes to. Facets given here win over those
stored with a user-defined type. -/
def resolve? (c : Catalog) (n : Name) (maxLength : Option Int32) (precision scale : Option UInt8) :
    Option TypeFacts :=
  if c.isBuiltin n then some { sqlType := .builtin n.name maxLength precision scale }
  else (c.scalarType? n).map fun facts =>
    { facts with
      sqlType :=
        { facts.sqlType with
          maxLength := maxLength.or facts.sqlType.maxLength
          precision := precision.or facts.sqlType.precision
          scale := scale.or facts.sqlType.scale } }

def resolveType? (c : Catalog) (t : DataType) : Option TypeFacts :=
  c.resolve? t.name t.length t.precision t.scale

/-- What a type reference comes to; an unknown name is kept as it is written. -/
def resolveType (c : Catalog) (t : DataType) : TypeFacts :=
  (c.resolveType? t).getD { sqlType := ⟨t.name.text, t.length, t.precision, t.scale⟩ }

/-- What the type of a stored column comes to; the column says itself whether it may be null. -/
def resolveColumn (c : Catalog) (r : ColumnRecord) : TypeFacts :=
  { c.resolveType ⟨r.type, r.maxLength, r.precision, r.scale⟩ with isNullable := some r.isNullable }

def schemaOf (c : Catalog) (n : Name) : String := n.schema.getD c.defaultSchema

def tableColumns? (c : Catalog) (n : Name) : Option (List ColumnRecord) :=
  c.snapshot.tableColumns? (c.schemaOf n) n.name n.catalog

def functionColumns? (c : Catalog) (n : Name) : Option (List ColumnRecord) :=
  c.snapshot.functionColumns? (c.schemaOf n) n.name

def tableTypeColumns? (c : Catalog) (n : Name) : Option (List ColumnRecord) :=
  c.snapshot.tableTypeColumns? (c.schemaOf n) n.name

def objectKind? (c : Catalog) (n : Name) : Option ObjectKind :=
  c.snapshot.objectKind? (c.schemaOf n) n.name n.catalog

end Catalog

end ResultShape
