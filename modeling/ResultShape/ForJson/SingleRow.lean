import ResultShape.Sql.Query
import ResultShape.Typing.Aggregate
/-! Queries that are known to give one row. -/
namespace ResultShape

/-- A call of an aggregate without a window, parentheses aside. -/
def Expr.isAggregate (e : Expr) : Bool :=
  match e.unnested with
  | .call name _ _ windowed =>
    !windowed && name.schema.isNone && AggregateRegistry.standard.isAggregate name.name
  | _ => false

def Item.isAggregate : Item → Bool
  | .expr value _ => value.isAggregate
  | _ => false

/-- One row for `TOP (1)`, for a block without sources, and for aggregates
alone; not so with groups. -/
def Select.singleRow (s : Select) : Option Bool :=
  if s.top.any Top.isSingleRow || s.sources.isEmpty then some true
  else if !s.groupBy.isEmpty then some false
  else if !s.items.isEmpty && s.items.all Item.isAggregate then some true
  else none

/-- Absent when it cannot be told, as for a set operation. -/
def Query.singleRow (q : Query) : Option Bool :=
  match q.body with
  | .select block => block.singleRow
  | _ => none

end ResultShape
