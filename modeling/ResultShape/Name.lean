import ResultShape.Text.Dotted
import ResultShape.Text.Fold
/-! Object names of one to three parts, and the folded keys they are found under. -/
namespace ResultShape

/-- An object name: `catalog.schema.name` with one to three parts. -/
structure Name where
  catalog : Option String
  schema : Option String
  name : String
  deriving DecidableEq, Repr, Inhabited

namespace Name

def bare (name : String) : Name := ⟨none, none, name⟩

def qualified (schema name : String) : Name := ⟨none, some schema, name⟩

/-- Reads a dotted text of one to three parts; any other text is a bare name as a whole. -/
def ofText (s : String) : Name :=
  match Text.segments s with
  | [name] => bare name
  | [schema, name] => qualified schema name
  | [catalog, schema, name] => ⟨some catalog, some schema, name⟩
  | _ => bare s

/-- The parts that are there, with a dot behind each but the last. -/
def text (n : Name) : String :=
  let part (p : Option String) := p.elim "" (· ++ ".")
  part n.catalog ++ part n.schema ++ n.name

/-- The name with a schema, its own or the one given. -/
def inSchema (n : Name) (schema : String) : Name := { n with schema := some (n.schema.getD schema) }

/-- Table variables (`@t`) and temporary tables (`#t`) are no schema objects. -/
def isLocal (n : Name) : Bool :=
  n.schema.isNone && (n.name.toList.head? == some '@' || n.name.toList.head? == some '#')

/-- Schema and name joined by a dot and folded. -/
def keyOf (schema name : String) : String := Text.fold (schema ++ "." ++ name)

/-- Catalog, schema and name joined by dots and folded. -/
def fullKeyOf (catalog schema name : String) : String :=
  Text.fold (catalog ++ "." ++ schema ++ "." ++ name)

/-- The folded key of the name in its schema, or in the default one. -/
def schemaKey (n : Name) (defaultSchema : String) : String :=
  keyOf (n.schema.getD defaultSchema) n.name

/-- The folded key with the catalog in front, for a name that has one. -/
def catalogKey (n : Name) (defaultSchema : String) : Option String :=
  n.catalog.map fun catalog => fullKeyOf catalog (n.schema.getD defaultSchema) n.name

end Name

end ResultShape
