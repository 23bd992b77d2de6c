import ResultShape.Keyed
import ResultShape.SqlType
/-! Aggregate functions: the type of their value, and a registry of them by name. -/
namespace ResultShape

/-- The kind of number that literals in an operand make it. -/
inductive LiteralHint where
  | integer
  | decimal
  deriving DecidableEq, Repr

/-- The stronger of two hints. -/
def LiteralHint.merge : Option LiteralHint → Option LiteralHint → Option LiteralHint
  | some .decimal, _ | _, some .decimal => some .decimal
  | some .integer, _ | _, some .integer => some .integer
  | _, _ => none

/-- What is known of the operand of an aggregate. -/
structure AggregateOperand where
  sqlType : Option SqlType := none
  isNullable : Option Bool := none
  literal : Option LiteralHint := none
  deriving DecidableEq, Repr, Inhabited

/-- Type and nullability of the value of an aggregate. -/
structure AggregateTyping where
  sqlType : Option SqlType := none
  isNullable : Option Bool := none
  deriving DecidableEq, Repr, Inhabited

/-- How the value of an aggregate is typed. -/
inductive AggregateRule where
  /-- A number of rows, never null. -/
  | count (sqlType : SqlType)
  | sum
  | average
  /-- One of the operand's own values. -/
  | extreme
  /-- A deviation or a variance. -/
  | statistical
  deriving DecidableEq, Repr

structure Aggregate where
  /-- The name in lower case. -/
  name : String
  rule : AggregateRule
  deriving DecidableEq, Repr

namespace Aggregate

/-- The type of a sum: integers stay integers, exact numbers keep their digits. -/
def sumType (operand : AggregateOperand) : SqlType :=
  let byLiteral : SqlType := if operand.literal = some .integer then .int else .decimal 38 10
  match operand.sqlType with
  | some t =>
    if t.base = "bigint" then .bigint
    else if t.isInteger then .int
    else if t.isExactDecimal then
      match t.precision with
      | some precision => .decimal precision (t.scale.getD 0)
      | none => .decimal 38 10
    else if t.isMoney || t.isApproximate then t
    else byLiteral
  | none => byLiteral

/-- The type of an average: money stays money, approximate numbers become `float`. -/
def averageType (operand : AggregateOperand) : SqlType :=
  match operand.sqlType with
  | some t => if t.isMoney then t else if t.isApproximate then .float else .decimal 38 6
  | none => .decimal 38 6

def infer (a : Aggregate) (operand : AggregateOperand) : AggregateTyping :=
  match a.rule with
  | .count sqlType => ⟨some sqlType, some false⟩
  | .sum => ⟨some (sumType operand), some true⟩
  | .average => ⟨some (averageType operand), some true⟩
  | .extreme => ⟨operand.sqlType, operand.isNullable⟩
  | .statistical => ⟨some .float, some true⟩

/-- The aggregates that SQL has. -/
def standard : List Aggregate :=
  [⟨"count", .count .int⟩, ⟨"count_big", .count .bigint⟩, ⟨"sum", .sum⟩, ⟨"avg", .average⟩,
   ⟨"min", .extreme⟩, ⟨"max", .extreme⟩,
   ⟨"stdev", .statistical⟩, ⟨"stdevp", .statistical⟩, ⟨"var", .statistical⟩, ⟨"varp", .statistical⟩]

end Aggregate

/-- Aggregates by name; upper and lower case do not differ. -/
structure AggregateRegistry where
  byName : Keyed String Aggregate := .empty
  deriving Inhabited

namespace AggregateRegistry

def register (r : AggregateRegistry) (a : Aggregate) : AggregateRegistry :=
  ⟨r.byName.insert a.name a⟩

def get? (r : AggregateRegistry) (name : String) : Option Aggregate :=
  r.byName.get? (Text.fold name)

def isAggregate (r : AggregateRegistry) (name : String) : Bool := (r.get? name).isSome

/-- The registered names in ascending order. -/
def names (r : AggregateRegistry) : List String := r.byName.keys.mergeSort fun a b => decide (a ≤ b)

def infer? (r : AggregateRegistry) (name : String) (operand : AggregateOperand) :
    Option AggregateTyping :=
  (r.get? name).map (·.infer operand)

/-- The registry of the aggregates that SQL has. -/
def standard : AggregateRegistry := Aggregate.standard.foldl register {}

end AggregateRegistry

end ResultShape
