import ResultShape.Analysis.Naming
import ResultShape.Analysis.Source
import ResultShape.ForJson.Shape
import ResultShape.ForJson.SingleRow
import ResultShape.ForJson.Text
/-! Queries: their result sets, by recursion on how many queries may still
be opened inside one another. -/
namespace ResultShape

/-- The columns that a body projects, before they are named. -/
structure Projection where
  columns : List ResultColumn
  hasWildcard : Bool

namespace Projection

/-- The columns of a set operation are those of its left side; one is null
where either side may be. -/
def union (left right : Projection) : Projection where
  columns := left.columns.mapIdx fun i c =>
    match right.columns[i]? with
    | some other => { c with isNullable := eitherNullable c.isNullable other.isNullable }
    | none => c
  hasWildcard := left.hasWildcard || right.hasWildcard

def resultSet (p : Projection) : ResultSet :=
  { columns := ResultColumn.assignNames p.columns, hasWildcardProjection := p.hasWildcard }

end Projection

/-- The columns a star stands for; one that cannot be expanded stays as a single column. -/
def Analysis.star (qualifier : Option String) : Analysis (List ResultColumn) := do
  let columns ← fromScopes fun catalog => ScopeStack.expand catalog qualifier
  return columns.getD [{ aliasTable := qualifier }]

/-- The columns of one item of a projection. -/
def Item.columns (nested : Nested) : Item → Analysis (List ResultColumn)
  | .expr value aliasName => do
    let column ← value.resolve nested
    return [{ column with aliasName := aliasName.or column.aliasName }]
  | .star qualifier => Analysis.star qualifier
  | .assign .. => return []

def Item.isStar : Item → Bool
  | .star _ => true
  | _ => false

/-- The columns of a list of items, in the scopes as they are. -/
def Item.projectAll (nested : Nested) (items : List Item) : Analysis Projection := do
  let columns ← items.mapM (Item.columns nested)
  return ⟨columns.flatten, items.any Item.isStar⟩

def Select.project (nested : Nested) (s : Select) : Analysis Projection := do
  s.sources.forM fun source => discard (source.register nested)
  Item.projectAll nested s.items

/-- The columns of a body; every `SELECT` block has a scope of its own. -/
def Body.project (nested : Nested) : Body → Analysis Projection
  | .select block => Analysis.inScope (block.project nested)
  | .nested query => do
    let set ← nested.query query
    return ⟨set.columns, set.hasWildcardProjection⟩
  | .setOp _ left right => do
    let left ← left.project nested
    let right ← right.project nested
    return left.union right

/-- The options of the query's `FOR JSON` clause, with those from its text where
some came without structure. -/
def Query.forJson? (config : Config) (q : Query) : Option ForJson :=
  (q.forClause.bind ForJson.ofClause?).map fun f =>
    if config.jsonTextFallback && !f.unparsed.isEmpty then f.fill q.sourceText else f

/-- A result set as the document that the query's `FOR JSON` clause makes of it. -/
def ResultSet.asDocument (q : Query) (set : ResultSet) (f : ForJson) : ResultSet :=
  { set with
    returnsJson := true
    returnsJsonArray := f.returnsArray
    jsonRootName := f.rootName
    jsonIncludeNulls := f.includesNulls
    jsonSingleRowGuaranteed := if f.returnsArray then set.jsonSingleRowGuaranteed else q.singleRow
    jsonShape := ResultColumn.jsonFields f.mode "" set.columns }

/-- The result set of a query whose inner queries are resolved as given. -/
def Query.resolveWith (nested : Nested) (q : Query) : Analysis ResultSet := do
  let projection ← Analysis.withCtes q.ctes (q.body.project nested)
  let set := projection.resultSet
  return (q.forJson? (← read).config).elim set (set.asDocument q)

/-- The named columns of the leftmost branch of a query. -/
def Query.anchorWith (nested : Nested) (q : Query) : Analysis (List ResultColumn) :=
  return ResultColumn.assignNames (← q.body.leftmost.project nested).columns

def tooDeep {α : Type} : Analysis α := do throw (.nestingTooDeep (← read).config.maxNestingDepth)

open Analysis in
/-- How queries are resolved while so many may still be opened inside one another. -/
def Nested.within : Nat → Nested
  | 0 => ⟨fun _ => tooDeep, fun _ => tooDeep⟩
  | n + 1 =>
    ⟨fun q => opening (q.resolveWith (within n)), fun q => opening (q.anchorWith (within n))⟩

/-- How queries are resolved that are opened at a depth: as many more may be
opened as the limit leaves. -/
def Depth.nested (d : Depth) : Nested := .within (d.limit - d.opened)

/-- The result set of a list of items, in the scopes as they are. -/
def Item.resolveAll (nested : Nested) (items : List Item) : Analysis ResultSet :=
  return (← Item.projectAll nested items).resultSet

end ResultShape
