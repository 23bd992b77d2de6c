import ResultShape.Analysis.Routine
import ResultShape.Proofs.Alike.Relation
import ResultShape.Proofs.Sql.Constructs
import ResultShape.Proofs.Sql.Rewriting
/-! Likeness: what the analysis of a routine and that of the routine rewritten have in common, and
what holds of every column that the first of the two comes to. -/
namespace ResultShape

/-- What is known of the value of a column. -/
structure ValueFacts where
  isAmbiguous : Bool := false
  source : Option ColumnSource := none
  sqlType : Option SqlType := none
  userType : Option Name := none
  isNullable : Option Bool := none

def ResultColumn.facts (c : ResultColumn) : ValueFacts :=
  ⟨c.isAmbiguous, c.source, c.sqlType, c.userType, c.isNullable⟩

/-- A column read back is not ambiguous, whatever it was where it was projected. -/
def ColumnInfo.facts (i : ColumnInfo) : ValueFacts :=
  ⟨false, i.source, i.sqlType, i.userType, i.isNullable⟩

def TypeFacts.facts (f : TypeFacts) : ValueFacts :=
  { sqlType := some f.sqlType, userType := f.userType, isNullable := f.isNullable }

/-- Two analyses of a routine, of which the second one sees the routine rewritten: which names
stand for each other, and a property of the columns of the first one. The routine contains none
but the allowed constructs. -/
structure Likeness where
  rewriting : Rewriting
  same : String → String → Prop
  holds : ValueFacts → Prop
  allows : Construct → Prop

section
variable (same : String → String → Prop)

structure Name.Alike (n n' : Name) : Prop where
  catalog : Option.Rel same n.catalog n'.catalog
  schema : Option.Rel same n.schema n'.schema
  name : same n.name n'.name

structure ColumnSource.Alike (s s' : ColumnSource) : Prop where
  schema : Option.Rel same s.schema s'.schema
  table : Option.Rel same s.table s'.table
  column : Option.Rel same s.column s'.column
  objectKind : s.objectKind = s'.objectKind

structure Reference.Alike (r r' : Reference) : Prop where
  kind : r.kind = r'.kind
  catalog : Option.Rel same r.catalog r'.catalog
  schema : Option.Rel same r.schema r'.schema
  name : same r.name r'.name

structure ExecutedRoutine.Alike (e e' : ExecutedRoutine) : Prop where
  catalog : Option.Rel same e.catalog e'.catalog
  schema : same e.schema e'.schema
  name : same e.name e'.name

structure JsonInfo.Alike (j j' : JsonInfo) : Prop where
  isArray : j.isArray = j'.isArray
  rootName : Option.Rel same j.rootName j'.rootName
  includeNulls : j.includeNulls = j'.includeNulls
  isNested : j.isNested = j'.isNested
  shapeUnknown : j.shapeUnknown = j'.shapeUnknown

structure ForJson.Alike (f f' : ForJson) : Prop where
  mode : f.mode = f'.mode
  withoutArrayWrapper : f.withoutArrayWrapper = f'.withoutArrayWrapper
  rootName : Option.Rel same f.rootName f'.rootName
  includeNullValues : f.includeNullValues = f'.includeNullValues

/-- Columns of one type and nullability whose names stand for each other,
whatever is inside them. -/
structure ResultColumn.Alike (c c' : ResultColumn) : Prop where
  name : same c.name c'.name
  aliasName : Option.Rel same c.aliasName c'.aliasName
  aliasTable : Option.Rel same c.aliasTable c'.aliasTable
  source : Option.Rel (ColumnSource.Alike same) c.source c'.source
  sqlType : c.sqlType = c'.sqlType
  userType : c.userType = c'.userType
  isNullable : c.isNullable = c'.isNullable
  isAmbiguous : c.isAmbiguous = c'.isAmbiguous
  reference : Option.Rel (Reference.Alike same) c.reference c'.reference
  aggregate : c.aggregate = c'.aggregate
  json : Option.Rel (JsonInfo.Alike same) c.json c'.json

end

/-- A column of a table, a function or a table type of the catalog. -/
def Catalog.Lists (catalog : Catalog) (r : ColumnRecord) : Prop :=
  ∃ n records, r ∈ records ∧
    (catalog.tableColumns? n = some records ∨ catalog.functionColumns? n = some records ∨
      catalog.tableTypeColumns? n = some records)

/-- A property of what is known of a value that the analysis keeps: it holds of whatever an allowed
construct gives as soon as it holds of what the construct is made of. -/
structure ValueFacts.Kept (env : Env) (allows : Construct → Prop)
    (holds : ValueFacts → Prop) : Prop where
  untyped : ∀ {f : ValueFacts}, f.isAmbiguous = false → f.userType = none → holds f
  ambiguous : holds { isAmbiguous := true }
  written : ∀ {t : DataType}, allows (.dataType t) → holds (env.catalog.resolveType t).facts
  stored : ∀ {r : ColumnRecord}, env.catalog.Lists r → holds (env.catalog.resolveColumn r).facts
  copied : ∀ {f : ValueFacts}, holds f → ∀ source isNullable,
    holds { f with isAmbiguous := false, source, isNullable }
  cast : ∀ {kind : CastKind} {t : DataType} {f : ValueFacts}, allows (.cast kind) →
    allows (.dataType t) → holds f →
    holds { f with
      sqlType := some (env.catalog.resolveType t).sqlType
      userType := (env.catalog.resolveType t).userType
      isNullable := if kind.isTry then some true else f.isNullable }
  merged : ∀ {f : ValueFacts}, allows .merge → holds f → ∀ sqlType isNullable,
    holds { f with
      sqlType, userType := if f.sqlType = sqlType then f.userType else none, isNullable }
  nullif : ∀ {f : ValueFacts}, allows .nullif → holds f → holds { f with isNullable := some true }
  jsonFragment : ∀ {f : ValueFacts}, allows .jsonQuery → holds f →
    holds { f with sqlType := some .nvarcharMax, userType := none, isNullable := some true }
  widened : ∀ {f : ValueFacts}, allows .setOp → holds f → ∀ isNullable, holds { f with isNullable }

namespace Likeness

variable (L : Likeness)

/-- What makes two analyses go alike. Names that stand for each other differ in nothing
that the analysis looks at, an expression means what the one means in whose place it
stands, and the property is kept. -/
structure Lawful (env : Env) : Prop extends ValueFacts.Kept env L.allows L.holds where
  keepsForm : L.rewriting.KeepsForm
  meaning : ∀ (e : Expr) (n : Nested), (L.rewriting.expr e).meaning n = e.meaning n
  resolve_value : ∀ (e : Expr) (n : Nested), (L.rewriting.value e).resolve n = e.resolve n
  name : ∀ s, L.same s (L.rewriting.name s)
  refl : ∀ s, L.same s s
  append : ∀ {a a' b b' : String}, L.same a a' → L.same b b' → L.same (a ++ b) (a' ++ b')
  fold_eq : ∀ {a a' : String}, L.same a a' → Text.fold a = Text.fold a'
  fill : ∀ (f : ForJson) (text : Option String),
    (f.fill text).Alike L.same (f.fill (text.map L.rewriting.name))

/-- The columns and those inside them are alike, and the property holds of the first ones. -/
inductive Column : ResultColumn → ResultColumn → Prop where
  | intro {c c' : ResultColumn} (flat : c.Alike L.same c') (holds : L.holds c.facts)
    (children : List.Forall₂ Column c.children c'.children) : Column c c'

structure Info (i i' : ColumnInfo) : Prop where
  name : L.same i.name i'.name
  source : Option.Rel (ColumnSource.Alike L.same) i.source i'.source
  sqlType : i.sqlType = i'.sqlType
  userType : i.userType = i'.userType
  isNullable : i.isNullable = i'.isNullable
  reference : Option.Rel (Reference.Alike L.same) i.reference i'.reference
  json : Option.Rel (JsonInfo.Alike L.same) i.json i'.json
  holds : L.holds i.facts
  children : List.Forall₂ L.Column i.children i'.children

def Map (m m' : ColumnMap) : Prop := Keyed.Alike L.Info m m'

inductive EntryColumns : ResultShape.EntryColumns → ResultShape.EntryColumns → Prop where
  | pending {n n' : Name} (h : n.Alike L.same n') : EntryColumns (.pending n) (.pending n')
  | unknown : EntryColumns .unknown .unknown
  | known {m m' : ColumnMap} (h : L.Map m m') : EntryColumns (.known m) (.known m')

structure Entry (e e' : ResultShape.Entry) : Prop where
  catalog : Option.Rel L.same e.catalog e'.catalog
  schema : Option.Rel L.same e.schema e'.schema
  name : L.same e.name e'.name
  aliasName : Option.Rel L.same e.aliasName e'.aliasName
  objectKind : e.objectKind = e'.objectKind
  columns : L.EntryColumns e.columns e'.columns
  forceNullable : e.forceNullable = e'.forceNullable

structure Scope (s s' : ResultShape.Scope) : Prop where
  keys : s.keys = s'.keys
  entries : List.Forall₂ L.Entry s.entries s'.entries

def Scopes (stack stack' : ScopeStack) : Prop := List.Forall₂ L.Scope stack stack'

structure Bindings (b b' : ResultShape.Bindings) : Prop where
  scalars : Keyed.Alike (fun f f' => f = f' ∧ L.holds f.facts) b.scalars b'.scalars
  tables : Keyed.Alike L.Map b.tables b'.tables

structure Cte (cte cte' : ResultShape.Cte) : Prop where
  eq : cte' = cte.rewrite L.rewriting
  allowed : ∀ k ∈ cte.query.constructs, L.allows k

structure Context (c c' : ResultShape.Context) : Prop where
  scopes : L.Scopes c.scopes c'.scopes
  bindings : L.Bindings c.bindings c'.bindings
  cteFrames : List.Forall₂ (List.Forall₂ L.Cte) c.cteFrames c'.cteFrames
  cteCache : Keyed.Alike L.Map c.cteCache c'.cteCache
  cteAnchors : Keyed.Alike L.Map c.cteAnchors c'.cteAnchors
  ctesInProgress : c.ctesInProgress = c'.ctesInProgress
  statement : c.statement = c'.statement
  depth : c.depth = c'.depth

structure Projection (p p' : ResultShape.Projection) : Prop where
  columns : List.Forall₂ L.Column p.columns p'.columns
  hasWildcard : p.hasWildcard = p'.hasWildcard

structure Set (s s' : ResultSet) : Prop where
  columns : List.Forall₂ L.Column s.columns s'.columns
  returnsJson : s.returnsJson = s'.returnsJson
  returnsJsonArray : s.returnsJsonArray = s'.returnsJsonArray
  jsonRootName : Option.Rel L.same s.jsonRootName s'.jsonRootName
  jsonIncludeNulls : s.jsonIncludeNulls = s'.jsonIncludeNulls
  jsonSingleRowGuaranteed : s.jsonSingleRowGuaranteed = s'.jsonSingleRowGuaranteed
  hasWildcardProjection : s.hasWildcardProjection = s'.hasWildcardProjection
  jsonShape : s.columns = s'.columns → s.jsonShape = s'.jsonShape
  reference : Option.Rel (Reference.Alike L.same) s.reference s'.reference

structure Model (m m' : RoutineModel) : Prop where
  resultSets : List.Forall₂ L.Set m.resultSets m'.resultSets
  executedRoutines :
    List.Forall₂ (ExecutedRoutine.Alike L.same) m.executedRoutines m'.executedRoutines
  parameterTypes : m.parameterTypes = m'.parameterTypes

structure Findings (f f' : ResultShape.Findings) : Prop where
  context : L.Context f.context f'.context
  model : L.Model f.model f'.model
  untyped : f.untyped = f'.untyped

end Likeness

end ResultShape
