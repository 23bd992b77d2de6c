import ResultShape.Sql.Query
/-! Statements of a routine's body: single statements, and control flow over them. -/
namespace ResultShape

structure VariableDeclaration where
  name : String
  type : DataType
  default : Option Expr

/-- A column of a table that is declared where it is used. -/
structure ColumnDefinition where
  name : String
  type : DataType
  nullable : Option Bool

/-- An `OUTPUT` clause; with `into` its rows go to a table instead of the client. -/
structure OutputClause where
  items : List Item
  into : Option Name

structure Execute where
  procedure : Name
  args : List Expr
  returnVariable : Option String

inductive InsertSource where
  | values (rows : List (List Expr))
  | query (query : Query)
  | execute (call : Execute)
  | defaultValues

structure Insert where
  ctes : List Cte
  target : Source
  columns : List String
  source : InsertSource
  output : Option OutputClause

/-- An `UPDATE` or a `DELETE`. -/
structure Change where
  ctes : List Cte
  target : Source
  sources : List Source
  output : Option OutputClause

structure Merge where
  ctes : List Cte
  /-- A named table or a table variable, with its alias. -/
  target : Source
  source : Source
  on : Option Expr
  output : Option OutputClause

/-- A statement that holds no other statement. -/
inductive Action where
  | select (query : Query)
  | insert (statement : Insert)
  | update (statement : Change)
  | delete (statement : Change)
  | merge (statement : Merge)
  | execute (call : Execute)
  | declare (declarations : List VariableDeclaration)
  /-- `DECLARE @t TABLE (…)`, or `CREATE TABLE #t (…)`. -/
  | declareTable (name : String) (columns : List ColumnDefinition)
  | set (name : String) (value : Expr)
  | return (value : Option Expr)
  | other (text : String)

/-- A statement: an action, or control flow over statements. -/
inductive Statement where
  | action (a : Action)
  | block (body : List Statement)
  | ifElse (condition : Expr) (yes : Statement) (no : Option Statement)
  | while (condition : Expr) (body : Statement)
  | tryCatch (body handler : List Statement)

end ResultShape
