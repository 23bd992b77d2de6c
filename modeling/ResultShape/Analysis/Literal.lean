import ResultShape.Model.Column
import ResultShape.Sql.Query
import ResultShape.Typing.Aggregate
/-! Literals as columns, and the kind of number that literals make of an expression. -/
namespace ResultShape

/-- Whether an integer has room in thirty-two bits. -/
def Literal.fitsInt (value : Int) : Bool :=
  Int32.minValue.toInt ≤ value && value ≤ Int32.maxValue.toInt

/-- The column of a literal; null has no type. -/
def Literal.column : Literal → ResultColumn
  | .null => { isNullable := some true }
  | .int value => .typed (if fitsInt value then .int else .bigint) false
  | .decimal text =>
    let (precision, scale) := precisionAndScale text; .typed (.decimal precision scale) false
  | .real _ => .typed .float false
  | .money _ => .typed .money false
  | .string value unicode =>
    let length := Int32.ofNat (max value.length 1)
    .typed (if unicode then .nvarchar length else .varchar length) false
  | .binary digits => .typed (.varbinary (Int32.ofNat (max (digits.utf8ByteSize / 2) 1))) false

def Literal.hint : Literal → Option LiteralHint
  | .int _ => some .integer
  | .decimal _ | .real _ | .money _ => some .decimal
  | _ => none

mutual

/-- The strongest kind of number among the literals that an expression may give or compute with. -/
def Expr.literalHint : Expr → Option LiteralHint
  | .literal value => value.hint
  | .paren inner => inner.literalHint
  | .unary _ operand => operand.literalHint
  | .binary _ left right => LiteralHint.merge left.literalHint right.literalHint
  | .iif _ yes no => LiteralHint.merge yes.literalHint no.literalHint
  | .case _ branches otherwise =>
    LiteralHint.merge (branchesHint branches) (otherwiseHint otherwise)
  | .coalesce args => argsHint args
  | _ => none

def argsHint : List Expr → Option LiteralHint
  | [] => none
  | e :: es => LiteralHint.merge e.literalHint (argsHint es)

def branchesHint : List Branch → Option LiteralHint
  | [] => none
  | ⟨_, result⟩ :: rest => LiteralHint.merge result.literalHint (branchesHint rest)

def otherwiseHint : Option Expr → Option LiteralHint
  | none => none
  | some e => e.literalHint

end

end ResultShape
