import ResultShape.Sql.DataType
import ResultShape.Sql.ForClause
import ResultShape.Sql.Literal
/-! Queries: expressions, table sources, `SELECT` blocks, set operations
and common table expressions. -/
namespace ResultShape

/-- A column as an expression names it: `name`, `alias.name` or `schema.table.name`. -/
structure ColumnRef where
  schema : Option String
  qualifier : Option String
  name : String
  deriving DecidableEq, Repr

def ColumnRef.text (c : ColumnRef) : String := (Name.mk c.schema c.qualifier c.name).text

inductive CastKind where
  | cast
  | convert
  | tryCast
  | tryConvert
  deriving DecidableEq, Repr

/-- A conversion that gives null where it fails. -/
def CastKind.isTry : CastKind → Bool
  | .tryCast | .tryConvert => true
  | _ => false

inductive BinaryOp where
  | add | subtract | multiply | divide | modulo | bitAnd | bitOr | bitXor
  | eq | notEq | less | lessEq | greater | greaterEq | and | or | like
  deriving DecidableEq, Repr

/-- An operator whose value has the type of its operands. -/
def BinaryOp.isArithmetic : BinaryOp → Bool
  | .add | .subtract | .multiply | .divide | .modulo | .bitAnd | .bitOr | .bitXor => true
  | _ => false

inductive UnaryOp where
  | minus
  | plus
  | bitNot
  | not
  deriving DecidableEq, Repr

inductive SetOp where
  | union
  | unionAll
  | except
  | intersect
  deriving DecidableEq, Repr

inductive JoinKind where
  | inner
  | left
  | right
  | full
  | cross
  | crossApply
  | outerApply
  deriving DecidableEq, Repr

/-- Whether the rows of the left side, and those of the right side, may be
missing from a joined row. -/
def JoinKind.nullableSides : JoinKind → Bool × Bool
  | .inner | .cross | .crossApply => (false, false)
  | .left | .outerApply => (false, true)
  | .right => (true, false)
  | .full => (true, true)

/-- A column of the schema that `OPENJSON` is given. -/
structure OpenJsonColumn where
  name : String
  type : DataType
  path : Option String
  asJson : Bool

mutual

inductive Expr where
  | column (ref : ColumnRef)
  | literal (value : Literal)
  /-- `@name`, or a global such as `@@ROWCOUNT`. -/
  | var (name : String)
  /-- The star of `COUNT(*)`. -/
  | star
  | cast (kind : CastKind) (operand : Expr) (target : DataType)
  /-- A call; `windowed` when it has an `OVER` clause. -/
  | call (name : Name) (args : List Expr) (distinct windowed : Bool)
  | iif (condition yes no : Expr)
  | case (operand : Option Expr) (branches : List Branch) (otherwise : Option Expr)
  | binary (op : BinaryOp) (left right : Expr)
  | unary (op : UnaryOp) (operand : Expr)
  | coalesce (args : List Expr)
  | nullif (left right : Expr)
  | subquery (query : Query)
  | exists (query : Query)
  | isNull (operand : Expr) (negated : Bool)
  | inList (operand : Expr) (items : List Expr) (negated : Bool)
  /-- An expression in parentheses. -/
  | paren (inner : Expr)
  /-- A construct of which only the text is known. -/
  | other (text : String)

/-- `WHEN condition THEN result`. -/
structure Branch where
  condition : Expr
  result : Expr

structure Query where
  body : Body
  ctes : List Cte
  orderBy : List OrderKey
  forClause : Option ForClause
  /-- The text of the query, where it was handed over. -/
  sourceText : Option String

/-- `name (columns) AS (query)` in a `WITH` clause. -/
structure Cte where
  name : String
  columns : List String
  query : Query

inductive Body where
  | select (block : Select)
  | setOp (op : SetOp) (left right : Body)
  /-- A query in parentheses. -/
  | nested (query : Query)

/-- One `SELECT` block. -/
structure Select where
  distinct : Bool
  top : Option Top
  items : List Item
  /-- The target of `SELECT … INTO`. -/
  into : Option String
  sources : List Source
  condition : Option Expr
  groupBy : List Expr
  having : Option Expr

structure Top where
  quantity : Expr
  percent : Bool
  withTies : Bool

/-- An item of a projection. -/
inductive Item where
  | expr (value : Expr) (aliasName : Option String)
  /-- `*`, or `alias.*`. -/
  | star (qualifier : Option String)
  /-- `@name = value`, which gives no column. -/
  | assign (name : String) (value : Expr)

structure OrderKey where
  value : Expr
  descending : Bool

/-- A source of rows in a `FROM` clause. -/
inductive Source where
  /-- A table, a view, a temporary table or a common table expression. -/
  | named (name : Name) (aliasName : Option String)
  /-- A table variable or a table-valued parameter. -/
  | var (name : String) (aliasName : Option String)
  | derived (query : Query) (aliasName : String) (columns : List String)
  | function (name : Name) (args : List Expr) (aliasName : Option String)
  | openJson (value : Expr) (path : Option String) (columns : List OpenJsonColumn)
    (aliasName : Option String)
  | join (kind : JoinKind) (left right : Source) (on : Option Expr)

end

/-- The expression without the parentheses around it. -/
def Expr.unnested : Expr → Expr
  | .paren inner => inner.unnested
  | e => e

/-- The literal that an expression is, parentheses aside. -/
def Expr.literal? (e : Expr) : Option Literal :=
  match e.unnested with
  | .literal value => some value
  | _ => none

/-- `TOP (1)` without `PERCENT` and `WITH TIES`. -/
def Top.isSingleRow (t : Top) : Bool :=
  !t.percent && !t.withTies &&
    match t.quantity.literal? with
    | some (.int 1) => true
    | _ => false

/-- An item that gives a column. -/
def Item.isVisible : Item → Bool
  | .assign .. => false
  | _ => true

mutual

/-- The leftmost `SELECT` block, which names the columns of a set operation. -/
def Body.firstSelect : Body → Select
  | .select block => block
  | .setOp _ left _ => left.firstSelect
  | .nested query => query.firstSelect

def Query.firstSelect : Query → Select
  | ⟨body, _, _, _, _⟩ => body.firstSelect

end

/-- The leftmost operand of a set operation. -/
def Body.leftmost : Body → Body
  | .setOp _ left _ => left.leftmost
  | body => body

def Body.isSetOp : Body → Bool
  | .setOp .. => true
  | _ => false

/-- Whether the query sends a column to the client. -/
def Query.isVisible (q : Query) : Bool :=
  q.firstSelect.into.isNone && q.firstSelect.items.any Item.isVisible

theorem Expr.unnested_paren (e : Expr) : (Expr.paren e).unnested = e.unnested := by rw [unnested]

theorem Expr.literal?_paren (e : Expr) : (Expr.paren e).literal? = e.literal? := by
  rw [literal?, unnested_paren, literal?]

end ResultShape
