import ResultShape.Analysis.Literal
import ResultShape.Model.ResultSet
import ResultShape.Typing.Precedence
/-! The column of an operator, a conditional or a null-handling function, from
the columns of its operands. -/
namespace ResultShape.ResultColumn

/-- A value that is true, false or unknown. -/
def truth (isNullable : Option Bool) : ResultColumn := { sqlType := some .bit, isNullable }

/-- Arithmetic has the type that wins, all other operators give a truth
value; null when an operand is. -/
def binary (op : BinaryOp) (left right : ResultColumn) : ResultColumn :=
  let isNullable := eitherNullable left.isNullable right.isNullable
  if !op.isArithmetic then truth isNullable
  else
    match left.sqlType, right.sqlType with
    | some l, some r =>
      if l.yieldsTo r then { sqlType := some r, userType := right.userType, isNullable }
      else { sqlType := some l, userType := left.userType, isNullable }
    | some l, none => { sqlType := some l, userType := left.userType, isNullable }
    | none, some r => { sqlType := some r, userType := right.userType, isNullable }
    | none, none => { isNullable }

/-- A sign keeps the type of its operand, a negation gives a truth value. -/
def unary (op : UnaryOp) (operand : ResultColumn) : ResultColumn :=
  if op = .not then truth operand.isNullable
  else { sqlType := operand.sqlType, isNullable := operand.isNullable }

/-- A conversion keeps where the value comes from and has the type of its target. -/
def cast (kind : CastKind) (target : SqlType × Option Name) (operand : ResultColumn) :
    ResultColumn :=
  { operand with
    sqlType := some target.1
    userType := target.2
    aggregate := none
    isNullable := if kind.isTry then some true else operand.isNullable }

/-- A branch of a conditional with its column. -/
structure Candidate where
  expr : Expr
  column : ResultColumn

namespace Candidate

def isNullLiteral (c : Candidate) : Bool := c.expr.literal?.any Literal.isNull

/-- How much a branch says: four for a cast, two for a type, one for a facet of it. -/
def score (c : Candidate) : Nat :=
  let cast := match c.expr.unnested with
    | .cast .. => 4
    | _ => 0
  match c.column.sqlType with
  | some t => cast + 2 + if t.maxLength.isSome || t.precision.isSome || t.scale.isSome then 1 else 0
  | none => cast

def agrees (first c : Candidate) : Bool :=
  match c.column.source, first.column.source with
  | some a, some b => a.sameOrigin b
  | _, _ => false

/-- The branch that stands for all: the first if all have one origin, else the
first of the highest score. -/
def primary (first : Candidate) (rest : List Candidate) : Candidate :=
  if (first :: rest).all (agrees first) then first
  else rest.foldl (fun best c => if best.score < c.score then c else best) first

/-- The branch that stands for all is one of them. -/
theorem primary_mem (first : Candidate) (rest : List Candidate) :
    first.primary rest ∈ first :: rest := by
  unfold primary
  split
  · exact List.mem_cons_self
  · refine List.foldlRecOn rest _ List.mem_cons_self fun best hbest c hc => ?_
    split
    · exact List.mem_cons_of_mem _ hc
    · exact hbest

end Candidate

/-- The value of one of several branches: types merge, and provenance is that of the primary branch.
Literal nulls do not compete for it. Without an `ELSE` the value may be null. -/
def conditional (branches : List Candidate) (hasElse : Bool) : ResultColumn :=
  let sqlType := SqlType.mergeAll (branches.map (·.column.sqlType))
  let isNullable := (branches.map (·.column.isNullable)).foldl eitherNullable (some !hasElse)
  match branches.filter (!·.isNullLiteral) with
  | [] => { sqlType, isNullable }
  | first :: rest =>
    let column := (Candidate.primary first rest).column
    { name := column.name
      source := column.source
      aliasTable := column.aliasTable
      reference := column.reference
      json := column.json
      children := column.children
      sqlType
      userType := if column.sqlType = sqlType then column.userType else none
      isNullable }

/-- The first column with the merged type of all of them. -/
def merged (columns : List ResultColumn) : ResultColumn :=
  let sqlType := SqlType.mergeAll (columns.map (·.sqlType))
  let first := columns.head?.getD blank
  { first with
    sqlType
    aggregate := none
    userType := if first.sqlType = sqlType then first.userType else none }

/-- Never null as soon as one argument never is; null only when all may be. -/
def coalesce (columns : List ResultColumn) : ResultColumn :=
  { merged columns with
    isNullable :=
      if columns.any (·.isNullable == some false) then some false
      else if !columns.isEmpty && columns.all (·.isNullable == some true) then some true
      else none }

/-- Null only when the replacement may be null and the value is not known never to be. -/
def isNull (columns : List ResultColumn) : ResultColumn :=
  let value := columns.head?.bind (·.isNullable)
  let replacement := columns[1]?.bind (·.isNullable)
  { merged columns with isNullable := some (replacement.getD false && value != some false) }

def nullif (left : ResultColumn) : ResultColumn :=
  { left with isNullable := some true, aggregate := none }

/-- The value of a subquery: a `FOR JSON` query gives a document, one plain column is the value
itself, and any other columns are inside the value. -/
def ofSubquery (r : ResultSet) : ResultColumn :=
  if r.returnsJson then
    { sqlType := some .nvarcharMax
      isNullable := some true
      json := some
        { isArray := r.returnsJsonArray, rootName := r.jsonRootName,
          includeNulls := r.jsonIncludeNulls
          isNested := true }
      children := r.columns }
  else
    match r.columns with
    | [single] =>
      if single.children.isEmpty && single.json.isNone then { single with aliasName := none }
      else { children := [single] }
    | columns => { children := columns }

/-- What is known of an argument of `JSON_QUERY`: the column of its document. -/
def asJson (column : ResultColumn) (shapeUnknown : Bool) : ResultColumn :=
  { column with json := column.json.or (some { shapeUnknown }) }

/-- The name of an array's item that has none. -/
def arrayItemName : String := "Item"

/-- A document that is an array of such items; an item that is itself a document
of fields gives its fields. -/
def arrayOf (item : ResultColumn) : ResultColumn :=
  { json := some { isArray := true, shapeUnknown := item.isUnresolved }
    children :=
      if item.json.isSome && !item.children.isEmpty then item.children
      else [{ item with name := if item.name.isEmpty then arrayItemName else item.name }] }

/-- The value of `JSON_QUERY` over a document. -/
def jsonFragment (document : ResultColumn) : ResultColumn :=
  { document with
    sqlType := some .nvarcharMax, userType := none, isNullable := some true, aggregate := none }

end ResultShape.ResultColumn
