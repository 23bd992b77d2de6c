import ResultShape.Analysis.Combine
import ResultShape.Analysis.Context
import ResultShape.Typing.Builtin
/-! Expressions: what each stands for in its context, by recursion on its parts. -/
namespace ResultShape

/-- The actions for queries inside the one at hand. -/
structure Nested where
  /-- The result set of a query. -/
  query : Query → Analysis ResultSet
  /-- The columns of the leftmost branch of a query. -/
  anchor : Query → Analysis (List ResultColumn)

/-- An operand of a concatenation: the text that it is, and the column of the item it repeats. -/
structure Operand where
  literal : Option Literal
  item : Option (Analysis ResultColumn)

/-- What the surroundings of an expression may ask of it. -/
structure Meaning where
  column : Analysis ResultColumn
  /-- Whether some part that is no literal has a known type. -/
  typed : Analysis Bool
  /-- The expression as one operand. -/
  operand : Operand
  /-- The operands of the chain of `+` that the expression is. -/
  operands : List Operand
  /-- The repeated item, for an expression that writes an array around it. -/
  arrayItem : Option (Analysis ResultColumn)

namespace Meaning

def isBracket (bracket : Char) (o : Operand) : Bool :=
  match o.literal with
  | some (.string value _) => Text.trim value.toList == [bracket]
  | _ => false

/-- The middle one of three operands, of which the outer ones are an
opening and a closing bracket. -/
def bracketed : List Operand → Option (Analysis ResultColumn)
  | [first, middle, last] => if isBracket '[' first && isBracket ']' last then middle.item else none
  | _ => none

/-- An expression that is known by its column alone. -/
def ofColumn (column : Analysis ResultColumn) : Meaning :=
  let operand : Operand := ⟨none, some column⟩
  ⟨column, return (← column).sqlType.isSome, operand, [operand], none⟩

def ofLiteral (value : Literal) : Meaning :=
  let operand : Operand := ⟨some value, some (return value.column)⟩
  ⟨return value.column, return false, operand, [operand], none⟩

/-- An expression whose type is known beyond literals when that of a part is. -/
def withTyped (m : Meaning) (typed : Analysis Bool) : Meaning := { m with typed }

/-- A sum: its operands are those of both sides. -/
def withOperands (m : Meaning) (operands : List Operand) : Meaning :=
  { m with operands, arrayItem := bracketed operands }

/-- A call of `CONCAT`: its arguments are the operands that may write an array. -/
def withConcat (m : Meaning) (args : List Operand) : Meaning :=
  { m with arrayItem := bracketed args }

/-- A call of `STRING_AGG`: what it repeats is its first argument. -/
def withItem (m : Meaning) (item : Option (Analysis ResultColumn)) : Meaning :=
  { m with operand := { m.operand with item }, operands := [{ m.operand with item }] }

/-- Asks one after the other until one is typed. -/
def anyTyped : List Meaning → Analysis Bool
  | [] => return false
  | m :: ms => do if ← m.typed then return true else anyTyped ms

end Meaning

namespace Analysis

/-- A column reference; `$action` is the word that `MERGE` gives for what it did. -/
def columnRef (ref : ColumnRef) : Analysis ResultColumn := do
  if ref.qualifier.isNone && Text.same ref.name "$action" then
    return { ResultColumn.typed (.nvarchar 10) false with name := ref.name }
  match ← fromScopes fun catalog => ScopeStack.lookup catalog ref with
  | .found column => return { column with name := ref.name }
  | .ambiguous => return (ResultColumn.named ref.name).markAmbiguous
  | .unresolved => return .named ref.name

/-- A variable: a global one, or one that the routine binds. -/
def variableColumn (name : String) : Analysis ResultColumn := do
  if name.startsWith "@@" then
    match globalVariable? name with
    | some (sqlType, isNullable) => return .typed sqlType isNullable
    | none => return .blank
  else
    match (← bindings).scalar? name with
    | some facts =>
      return { sqlType := some facts.sqlType, userType := facts.userType
               isNullable := some (facts.isNullable.getD true) }
    | none => return .blank

/-- The name of a function in its schema, or in the default one. -/
def functionName (name : Name) : Analysis Name := return name.inSchema (← defaultSchema)

/-- A call of a user-defined function, of which only the function is known. -/
def userDefinedCall (name : Name) : Analysis ResultColumn :=
  return { reference := some (.ofName .function (← functionName name)) }

/-- A user-defined function inside `JSON_QUERY`: its columns, where the
catalog has them, are the fields. -/
def wrappedCall (name : Name) : Analysis ResultColumn := do
  let function ← functionName name
  let catalog ← catalog
  let children := (catalog.functionColumns? function).map fun records => records.map fun r =>
    let facts := catalog.resolveColumn r
    { name := r.name, sqlType := some facts.sqlType, userType := facts.userType,
      isNullable := facts.isNullable
      : ResultColumn }
  return {
    reference := some (.ofName .function function)
    json := some { shapeUnknown := children.isNone }
    children := children.getD [] }

/-- The operand of an aggregate; a type that only literals gave leaves it without one. -/
def aggregateOperand (e : Expr) (m : Meaning) : Analysis AggregateOperand := do
  match e.unnested with
  | .star => return {}
  | e =>
    let column ← m.column
    let typed ← if e.literalHint.isSome then m.typed else pure true
    return { sqlType := if typed then column.sqlType else none
             isNullable := column.isNullable
             literal := e.literalHint }

/-- An aggregate over its first argument. -/
def aggregateCall (name : Name) (windowed : Bool) (arg : Option (Expr × Meaning)) :
    Analysis ResultColumn := do
  let operand ← match arg with
    | none => pure {}
    | some (e, m) => aggregateOperand e m
  let name := Text.fold name.name
  let typing := (AggregateRegistry.standard.infer? name operand).getD {}
  return { sqlType := typing.sqlType, isNullable := typing.isNullable
           aggregate := if windowed then none else some name }

/-- How many leading arguments of a function are words and no operands. -/
def leadingWords (function : String) : Nat :=
  if ["datediff", "datediff_big", "datepart", "datename"].contains (Text.fold function)
  then 1 else 0

def columns (ms : List Meaning) : Analysis (List ResultColumn) := ms.mapM (·.column)

/-- A built-in function with a type of its own; without a nullability of its own it
is null when an operand is. -/
def fixedCall (name : Name) (sqlType : SqlType) (isNullable : Option Bool) (args : List Meaning) :
    Analysis ResultColumn := do
  match isNullable with
  | some isNullable => return .typed sqlType isNullable
  | none =>
    let operands ← columns (args.drop (leadingWords name.name))
    return { sqlType := some sqlType,
             isNullable := (operands.map (·.isNullable)).foldl eitherNullable (some false) }

/-- A function without a built-in rule, or with a schema. -/
def isUserDefined (name : Name) : Bool :=
  name.schema.isSome || (BuiltinRule.ofName? name.name).isNone

/-- A value inside `JSON_QUERY` that is an array of items, or else a document of its own. -/
def jsonValue (m : Meaning) : Analysis ResultColumn := do
  match m.arrayItem with
  | some item => return .arrayOf (← item)
  | none => return (← m.column).asJson true

/-- The document inside `JSON_QUERY`: a function's rows, a query's rows, or a value. -/
def jsonArgument (e : Expr) (m : Meaning) : Analysis ResultColumn := do
  match e.unnested with
  | .subquery _ =>
    let column ← m.column
    return column.asJson column.children.isEmpty
  | .call name .. => if isUserDefined name then wrappedCall name else jsonValue m
  | _ => jsonValue m

/-- `JSON_QUERY` over its first argument. -/
def jsonQuery (arg : Option (Expr × Meaning)) : Analysis ResultColumn := do
  let document ← match arg with
    | none => pure (ResultColumn.blank.asJson true)
    | some (e, m) => jsonArgument e m
  return document.jsonFragment

def builtinCall (name : Name) (windowed : Bool) (args : List (Expr × Meaning)) :
    BuiltinRule → Analysis ResultColumn
  | .aggregate => aggregateCall name windowed args.head?
  | .fixed sqlType isNullable => fixedCall name sqlType isNullable (args.map (·.2))
  | .passThrough argument =>
    match args[argument]? with
    | some (_, m) => return { ← m.column with aggregate := none }
    | none => return .blank
  | .unboundedText => return .typed .nvarcharMax true
  | .jsonQuery => jsonQuery args.head?
  | .isNull => return .isNull (← columns (args.map (·.2)))
  | .coalesce => return .coalesce (← columns (args.map (·.2)))
  | .nullif =>
    match args with
    | [(_, left), (_, right)] => do
      let column ← left.column
      let _ ← right.column
      return column.nullif
    | _ => return { isNullable := some true }

def call (name : Name) (windowed : Bool) (args : List (Expr × Meaning)) : Analysis ResultColumn :=
  match if name.schema.isSome then none else BuiltinRule.ofName? name.name with
  | some rule => builtinCall name windowed args rule
  | none => userDefinedCall name

def conditional (branches : List (Expr × Meaning)) (hasElse : Bool) : Analysis ResultColumn := do
  let candidates ← branches.mapM fun b => return (⟨b.1, ← b.2.column⟩ : ResultColumn.Candidate)
  return .conditional candidates hasElse

end Analysis

namespace Meaning

/-- A call; `CONCAT` may write an array, and `STRING_AGG` repeats its first argument. -/
def ofCall (name : Name) (windowed : Bool) (args : List (Expr × Meaning)) : Meaning :=
  let m := ofColumn (Analysis.call name windowed args)
  if name.schema.isSome then m
  else if Text.same name.name "concat" then m.withConcat (args.map (·.2.operand))
  else if Text.same name.name "string_agg" then m.withItem (args.head?.map (·.2.column))
  else m

/-- One of several branches. -/
def ofBranches (branches : List (Expr × Meaning)) (hasElse : Bool) : Meaning :=
  (ofColumn (Analysis.conditional branches hasElse)).withTyped (anyTyped (branches.map (·.2)))

def ofBinary (op : BinaryOp) (left right : Meaning) : Meaning :=
  let m := ofColumn do return .binary op (← left.column) (← right.column)
  let m := m.withTyped (anyTyped [left, right])
  if op = .add then m.withOperands (left.operands ++ right.operands) else m

def ofUnary (op : UnaryOp) (operand : Meaning) : Meaning :=
  (ofColumn do return .unary op (← operand.column)).withTyped operand.typed

def ofCast (kind : CastKind) (target : DataType) (operand : Meaning) : Meaning :=
  ofColumn do
    let column ← operand.column
    let facts := (← Analysis.catalog).resolveType target
    return column.cast kind (facts.sqlType, facts.userType)

def ofCoalesce (args : List Meaning) : Meaning :=
  (ofColumn do return .coalesce (← args.mapM (·.column))).withTyped (anyTyped args)

def ofNullif (left right : Meaning) : Meaning :=
  ofColumn do
    let column ← left.column
    let _ ← right.column
    return column.nullif

end Meaning

mutual

/-- The meaning of an expression, with the queries inside it resolved as given. -/
def Expr.meaning (nested : Nested) : Expr → Meaning
  | .column ref => .ofColumn (Analysis.columnRef ref)
  | .literal value => .ofLiteral value
  | .var name => .ofColumn (Analysis.variableColumn name)
  | .star => .ofColumn (return .blank)
  | .cast kind operand target => .ofCast kind target (operand.meaning nested)
  | .call name args _ windowed => .ofCall name windowed (meanings nested args)
  | .iif _ yes no => .ofBranches [(yes, yes.meaning nested), (no, no.meaning nested)] true
  | .case _ branches otherwise =>
    .ofBranches (branchMeanings nested branches ++ otherwiseMeaning nested otherwise)
      otherwise.isSome
  | .binary op left right => .ofBinary op (left.meaning nested) (right.meaning nested)
  | .unary op operand => .ofUnary op (operand.meaning nested)
  | .coalesce args => .ofCoalesce ((meanings nested args).map (·.2))
  | .nullif left right => .ofNullif (left.meaning nested) (right.meaning nested)
  | .subquery query => .ofColumn do return .ofSubquery (← nested.query query)
  | .exists _ => .ofColumn (return .typed .bit false)
  | .isNull _ _ => .ofColumn (return .typed .bit false)
  | .inList _ _ _ => .ofColumn (return .typed .bit false)
  | .paren inner => inner.meaning nested
  | .other _ => .ofColumn (return .blank)

def Expr.meanings (nested : Nested) : List Expr → List (Expr × Meaning)
  | [] => []
  | e :: es => (e, e.meaning nested) :: Expr.meanings nested es

def Expr.branchMeanings (nested : Nested) : List Branch → List (Expr × Meaning)
  | [] => []
  | ⟨_, result⟩ :: rest => (result, result.meaning nested) :: Expr.branchMeanings nested rest

def Expr.otherwiseMeaning (nested : Nested) : Option Expr → List (Expr × Meaning)
  | none => []
  | some e => [(e, e.meaning nested)]

end

/-- The column of an expression. -/
def Expr.resolve (nested : Nested) (e : Expr) : Analysis ResultColumn := (e.meaning nested).column

end ResultShape
