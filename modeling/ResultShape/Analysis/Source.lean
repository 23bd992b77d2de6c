import ResultShape.Analysis.Expr
/-! Sources: how each item of a `FROM` clause becomes an entry of the scope, with its columns. -/
namespace ResultShape

namespace Analysis

/-- The columns of a CTE from its definition; its leftmost branch comes
first, for references to itself. -/
def computeCte (nested : Nested) (cte : Cte) : Analysis ColumnMap := do
  if cte.query.body.isSetOp then
    let anchor ← nested.anchor cte.query
    modify (·.setCteAnchor cte.name (.ofColumns anchor cte.columns))
  let set ← nested.query cte.query
  return .ofColumns set.columns cte.columns

/-- The columns of a CTE, computed once a statement. A reference made while they are being computed
sees those of the leftmost branch, or none before these are known. -/
def cteColumns (nested : Nested) (cte : Cte) : Analysis ColumnMap := do
  let c ← get
  match c.cachedCte? cte.name with
  | some columns => return columns
  | none =>
    if c.isCteInProgress cte.name then return (c.cteAnchor? cte.name).getD .empty
    let columns ← computingCte cte.name (computeCte nested cte)
    modify (·.cacheCte cte.name columns)
    return columns

/-- A table variable, table parameter or temporary table, as far as the routine binds it. -/
def addLocal (name : String) (aliasName : Option String) : Analysis Unit := do
  let columns := (← bindings).table? name
  addEntry (.resolved name aliasName columns) (aliasName.toList ++ [name])

/-- A table or view, found by its name alone and with schema and catalog in front. -/
def addTable (name : Name) (aliasName : Option String) : Analysis Unit := do
  let schema := name.schema.getD (← defaultSchema)
  let kind := ((← catalog).objectKind? name).getD .table
  let inSchema := schema ++ "." ++ name.name
  let full := name.catalog.map (· ++ "." ++ inSchema)
  addEntry (.table name schema aliasName kind)
    (aliasName.toList ++ [name.name, inSchema] ++ full.toList)

/-- A name is that of a local table, of a CTE where it has one part, or else of a table or view. -/
def addNamed (nested : Nested) (name : Name) (aliasName : Option String) : Analysis Unit := do
  if name.isLocal then addLocal name.name aliasName
  else
    match (← get).cteNamed? name with
    | some cte =>
      let columns ← cteColumns nested cte
      addEntry { Entry.resolved cte.name aliasName columns with isCte := true }
        (aliasName.toList ++ [cte.name])
    | none => addTable name aliasName

def addDerived (nested : Nested) (query : Query) (aliasName : String) (columns : List String) :
    Analysis Unit := do
  let set ← nested.query query
  addEntry (.resolved aliasName none (some (.ofColumns set.columns columns))) [aliasName]

/-- The columns of a table-valued function; each names the function as what it depends on. -/
def functionColumns (function : Name) (owner : ColumnSource) : Analysis (Option ColumnMap) := do
  let catalog ← catalog
  let reference := Reference.ofName .function function
  return (catalog.functionColumns? function).map fun records =>
    .ofInfos (records.map fun r =>
      { ColumnInfo.ofRecord catalog owner r with reference := some reference })

def addFunction (name : Name) (aliasName : Option String) : Analysis Unit := do
  if name.schema.isNone && Text.same name.name "string_split" then
    let columns := ColumnMap.ofInfos [.typed "value" (.nvarchar 4000) false]
    addEntry (.resolved name.name aliasName (some columns)) (aliasName.toList ++ [name.name])
  else
    let schema := name.schema.getD (← defaultSchema)
    let function := { name with schema := some schema }
    let columns ← functionColumns function
      { schema := some schema, table := some name.name, objectKind := some .function }
    let entry := { Entry.resolved name.name aliasName columns with
      schema := some schema, objectKind := some .function, isFunction := true }
    addEntry entry (aliasName.toList ++ [name.name])

/-- A column of `OPENJSON`: a fragment of the document, or a value of the declared type. -/
def openJsonColumn (catalog : Catalog) (c : OpenJsonColumn) : ColumnInfo :=
  if c.asJson then
    { name := c.name, isNullable := some true, sqlType := some .nvarcharMax,
      json := some { shapeUnknown := true } }
  else
    let facts := catalog.resolveType c.type
    { name := c.name, isNullable := some true, sqlType := some facts.sqlType,
      userType := facts.userType }

/-- The columns that `OPENJSON` has without a schema. -/
def openJsonDefault : List ColumnInfo :=
  [.typed "key" (.nvarchar 4000) false, .typed "value" .nvarcharMax true,
    .typed "type" .tinyint false]

def addOpenJson (declared : List OpenJsonColumn) (aliasName : Option String) : Analysis Unit := do
  let catalog ← catalog
  let columns := if declared.isEmpty then openJsonDefault else declared.map (openJsonColumn catalog)
  addEntry (.resolved "OPENJSON" aliasName (some (.ofInfos columns)))
    (aliasName.toList ++ ["OPENJSON"])

/-- The positions of the entries that an action adds: the first one, and the one behind the last. -/
def added (x : Analysis Unit) : Analysis (Nat × Nat) := do
  let first := ScopeStack.size (← get).scopes
  x
  return (first, ScopeStack.size (← get).scopes)

/-- Marks the entries of one side of a join if its rows may be missing. -/
def markSide (isNullable : Bool) (side : Nat × Nat) : Analysis Unit :=
  if isNullable then modify fun c =>
    { c with scopes := ScopeStack.markNullable side.1 side.2 c.scopes }
  else return

end Analysis

open Analysis in
/-- Adds the entries of a source to the innermost scope, from left to
right, and gives their positions. -/
def Source.register (nested : Nested) : Source → Analysis (Nat × Nat)
  | .named name aliasName => added (addNamed nested name aliasName)
  | .var name aliasName => added (addLocal name aliasName)
  | .derived query aliasName columns => added (addDerived nested query aliasName columns)
  | .function name _ aliasName => added (addFunction name aliasName)
  | .openJson _ _ columns aliasName => added (addOpenJson columns aliasName)
  | .join kind left right _ => added do
    let left ← left.register nested
    let right ← right.register nested
    markSide kind.nullableSides.1 left
    markSide kind.nullableSides.2 right

/-- The tables that an `OUTPUT` clause reads the changed rows from. -/
def pseudoTables : List String := ["inserted", "deleted"]

/-- The position of a target that is named through a source in scope, as in
`UPDATE o … FROM dbo.Orders o`. -/
def Source.registered? (scopes : ScopeStack) : Source → Option Nat
  | .named name none =>
    scopes.head?.bind (·.index? (name.schema.elim name.name (· ++ "." ++ name.name)))
  | _ => none

/-- The position of the target of a change, which is added unless it is in scope. -/
def Source.targetPosition (nested : Nested) (target : Source) : Analysis Nat := do
  match target.registered? (← get).scopes with
  | some position => return position
  | none => return (← target.register nested).1

/-- Adds the tables of changed rows as copies of the entry at a position. -/
def Analysis.addPseudoTables (position : Nat) (nullable : Bool) : Analysis Unit := do
  match ScopeStack.entryAt? (← get).scopes position with
  | none => return
  | some entry =>
    let entry := entry.load (← Analysis.catalog)
    pseudoTables.forM fun pseudo =>
      let copy := entry.aliased pseudo
      Analysis.addEntry (if nullable then copy.markNullable else copy) [pseudo]

/-- Adds the target of a change, unless it is in scope, and the tables of
changed rows as copies of it. -/
def Source.registerTarget (nested : Nested) (target : Source) (nullable : Bool) :
    Analysis Unit := do
  Analysis.addPseudoTables (← target.targetPosition nested) nullable

end ResultShape
