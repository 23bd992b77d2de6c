import ResultShape.Scope.Column
/-! Bindings of a routine: its scalar variables and its local tables. -/
namespace ResultShape

/-- Variables and parameters with their types; table variables, table parameters and temporary
tables with their columns. A name bound again takes its new meaning. -/
structure Bindings where
  scalars : Keyed String TypeFacts := .empty
  tables : Keyed String ColumnMap := .empty
  deriving Inhabited

namespace Bindings

def bindScalar (b : Bindings) (name : String) (facts : TypeFacts) : Bindings :=
  { b with scalars := b.scalars.insert (Text.fold name) facts }

def scalar? (b : Bindings) (name : String) : Option TypeFacts := b.scalars.get? (Text.fold name)

def bindTable (b : Bindings) (name : String) (columns : ColumnMap) : Bindings :=
  { b with tables := b.tables.insert (Text.fold name) columns }

def table? (b : Bindings) (name : String) : Option ColumnMap := b.tables.get? (Text.fold name)

end Bindings

end ResultShape
