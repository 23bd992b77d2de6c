import ResultShape.Analysis.Query
import ResultShape.Model.Routine
import ResultShape.Sql.Routine
/-! Routines: a walk over the statements of a body, in order, that collects
what the routine returns. -/
namespace ResultShape

/-- What a walk has found so far. -/
structure Findings where
  context : Context := {}
  model : RoutineModel := {}
  /-- The folded names of variables that were declared with a type nobody knows. -/
  untyped : List String := []
  deriving Inhabited

/-- A walk over statements; an error ends it. -/
abbrev Walk := ReaderT Env (StateT Findings (Except AnalysisError))

namespace Walk

variable {α : Type}

/-- An action on the context of the walk. -/
def analyze (x : Analysis α) : Walk α := fun env f =>
  match x.outcome env f.context with
  | (.ok a, context) => .ok (a, { f with context })
  | (.error e, _) => .error e

/-- An action for which queries are resolved at the depth of the walk. -/
def ask (x : Nested → Analysis α) : Walk α := do
  let depth := (← get).context.depthWithin (← read).config.maxNestingDepth
  analyze (x depth.nested)

def catalog : Walk Catalog := return (← read).catalog

def defaultSchema : Walk String := return (← read).config.defaultSchema

def bindings (change : Bindings → Bindings) : Walk Unit :=
  modify fun f => { f with context := { f.context with bindings := change f.context.bindings } }

def addResultSet (set : ResultSet) : Walk Unit :=
  modify fun f => { f with model := { f.model with resultSets := f.model.resultSets ++ [set] } }

/-- Notes the use of a type, once for each type. -/
def useType (reference : Reference) : Walk Unit :=
  modify fun f =>
    if f.model.parameterTypes.any (·.identity == reference.identity) then f
    else { f with
      model := { f.model with parameterTypes := f.model.parameterTypes ++ [reference] } }

def useUserType (facts : TypeFacts) : Walk Unit :=
  match facts.userType with
  | some name => useType (.ofName .userDefinedType name)
  | none => return

/-- Binds a table variable whose columns a table type gives. -/
def bindTableOfType (name : String) (type : Name) (records : List ColumnRecord) : Walk Unit := do
  let columns := ColumnMap.ofRecords (← catalog) { table := some name } records
  bindings (·.bindTable name columns)
  useType (.ofName .tableType (type.inSchema (← defaultSchema)))

def bindParameter (p : Parameter) : Walk Unit := do
  match (← catalog).tableTypeColumns? p.type.name with
  | some records => bindTableOfType p.name p.type.name records
  | none =>
    let facts := (← catalog).resolveType p.type
    useUserType facts
    bindings (·.bindScalar p.name facts)

/-- The type of an expression; where it has one the value may be null or not. -/
def typeOf (e : Expr) : Walk (Option TypeFacts) := do
  let column ← ask fun nested => e.resolve nested
  return column.sqlType.map fun sqlType => { sqlType, userType := column.userType }

/-- Binds a variable of a type nobody knows, by the type of its default if that has one. -/
def bindUntyped (d : VariableDeclaration) : Option TypeFacts → Walk Unit
  | some facts => bindings (·.bindScalar d.name facts)
  | none => do
    modify fun f => { f with untyped := Text.fold d.name :: f.untyped }
    let facts := (← catalog).resolveType d.type
    bindings (·.bindScalar d.name facts)

/-- Binds a variable. A type nobody knows gives way to the type of the default, if that has one. -/
def declareVariable (d : VariableDeclaration) : Walk Unit := do
  match (← catalog).tableTypeColumns? d.type.name with
  | some records => bindTableOfType d.name d.type.name records
  | none =>
    match (← catalog).resolveType? d.type with
    | some facts =>
      useUserType facts
      bindings (·.bindScalar d.name facts)
    | none =>
      match d.default with
      | some e => bindUntyped d (← typeOf e)
      | none => bindUntyped d none

/-- A value types its variable only if no declaration did. -/
def setVariable (name : String) (value : Expr) : Walk Unit := do
  let f ← get
  if (f.context.bindings.scalar? name).isSome && !f.untyped.contains (Text.fold name) then return
  match ← typeOf value with
  | some facts =>
    bindings (·.bindScalar name facts)
    modify fun f => { f with untyped := f.untyped.filter (· ≠ Text.fold name) }
  | none => return

def declareTable (name : String) (columns : List ColumnDefinition) : Walk Unit := do
  let columns := ColumnMap.ofDefinitions (← catalog) name columns
  bindings (·.bindTable name columns)

def execute (e : Execute) : Walk Unit := do
  let schema := e.procedure.schema.getD (← defaultSchema)
  let routine : ExecutedRoutine := ⟨e.procedure.catalog, schema, e.procedure.name⟩
  modify fun f =>
    { f with model := { f.model with executedRoutines := f.model.executedRoutines ++ [routine] } }

/-- A query that stands for itself: with `INTO` it makes a table, else it is a
result set if it sends a column. -/
def selectQuery (q : Query) : Walk Unit := do
  let set ← ask fun nested => nested.query q
  match q.firstSelect.into with
  | some target => bindings (·.bindTable target (.ofColumns set.columns []))
  | none => if q.isVisible then addResultSet set

/-- The catalog object behind the target of a change, read from the table of its new rows. -/
def targetReference (scopes : ScopeStack) : Option Reference := do
  let scope ← scopes.head?
  let entry ← scope.entries[← scope.index? (← pseudoTables.head?)]?
  return ⟨← entry.objectKind, entry.catalog, entry.schema, entry.name⟩

/-- The sources of a change and its target; a `MERGE` names its target before its source. -/
def registerChange (nested : Nested) (target : Source) (sources : List Source) (isMerge : Bool) :
    Analysis Unit := do
  let registerSources : Analysis Unit := sources.forM fun source => discard (source.register nested)
  if isMerge then
    target.registerTarget nested true
    registerSources
  else
    registerSources
    target.registerTarget nested false

/-- The items of an `OUTPUT` clause over the rows of a change, in the scopes as they are. -/
def outputItems (target : Source) (sources : List Source) (isMerge : Bool) (items : List Item)
    (nested : Nested) :
    Analysis ResultSet := do
  registerChange nested target sources isMerge
  let set ← Item.resolveAll nested items
  return { set with reference := targetReference (← get).scopes }

/-- The items of an `OUTPUT` clause in a scope of their own, under the
`WITH` clause of the statement. -/
def changedRows (ctes : List Cte) (target : Source) (sources : List Source) (isMerge : Bool)
    (items : List Item) (nested : Nested) : Analysis ResultSet :=
  Analysis.inScope <| Analysis.withCtes ctes <| outputItems target sources isMerge items nested

/-- The rows that a change sends to the client; those of `OUTPUT … INTO` go elsewhere. -/
def output (ctes : List Cte) (target : Source) (sources : List Source) (isMerge : Bool) :
    Option OutputClause → Walk Unit
  | none => return
  | some clause => do
    if clause.into.isSome then return
    let set ← ask (changedRows ctes target sources isMerge clause.items)
    addResultSet set

/-- One action; `returnsTable` in a function whose value is a table. -/
def action (returnsTable : Bool) : Action → Walk Unit
  | .select query => selectQuery query
  | .insert s => do
    match s.source with
    | .execute call => execute call
    | _ => pure ()
    output s.ctes s.target [] false s.output
  | .update s | .delete s => output s.ctes s.target s.sources false s.output
  | .merge s => output s.ctes s.target [s.source] true s.output
  | .execute call => execute call
  | .declare declarations => declarations.forM declareVariable
  | .declareTable name columns => declareTable name columns
  | .set name value => setVariable name value
  | .return (some (.subquery query)) => if returnsTable then selectQuery query else return
  | .return _ => return
  | .other _ => return

mutual

/-- A statement; every action in it starts a statement of its own. -/
def statement (returnsTable : Bool) : Statement → Walk Unit
  | .action a => do
    modify fun f => { f with context := f.context.nextStatement }
    action returnsTable a
  | .block body => statements returnsTable body
  | .ifElse _ yes no => do
    statement returnsTable yes
    otherwise returnsTable no
  | .while _ body => statement returnsTable body
  | .tryCatch body handler => do
    statements returnsTable body
    statements returnsTable handler

def statements (returnsTable : Bool) : List Statement → Walk Unit
  | [] => return
  | s :: rest => do
    statement returnsTable s
    statements returnsTable rest

def otherwise (returnsTable : Bool) : Option Statement → Walk Unit
  | none => return
  | some s => statement returnsTable s

end

/-- The declared table of a table function as its result set. -/
def returnTable (name : String) : Walk Unit := do
  match (← get).context.bindings.table? name with
  | some columns => addResultSet { columns := columns.values.map (·.project name false) }
  | none => return

/-- Parameters and return table, then the body, then the rows of the return table. -/
def routine (r : Routine) : Walk Unit := do
  r.parameters.forM bindParameter
  match r.returnTable with
  | some (name, columns) => declareTable name columns
  | none => pure ()
  statements (r.kind == .tableFunction) r.body
  match r.returnTable with
  | some (name, _) => returnTable name
  | none => pure ()

end Walk

/-- The model of a routine. Names without a schema are completed by the settings of the analysis,
whatever the catalog was made with. -/
def Routine.model (catalog : Catalog) (config : Config) (r : Routine) :
    Except AnalysisError RoutineModel := do
  let env : Env := ⟨catalog.withDefaultSchema config.defaultSchema, config⟩
  let (_, findings) ← Walk.routine r env {}
  return findings.model

end ResultShape
