import ResultShape.Proofs.Analysis.Forms
import ResultShape.Proofs.Analysis.Outcome
/-! Values of their own: of what a literal, a variable, an operator, a test and most built-in
functions come to, nothing is known but the type, the nullability and the aggregate that it is. -/
namespace ResultShape

/-- The expression makes a value of its own: it is a literal, a variable, an operator, a test, or a
call of a built-in function which does not pass on what it is given. -/
def Expr.makesValue : Expr → Bool
  | .literal _ | .var _ | .unary .. | .binary .. | .exists _ | .isNull .. | .inList .. => true
  | .call name .. =>
    match BuiltinRule.ofCall? name with
    | some .aggregate | some (.fixed ..) | some .unboundedText => true
    | _ => false
  | _ => false

/-- The column of a value of its own, which is an aggregate or none. -/
inductive ResultColumn.IsValue (aggregate : Option String) : ResultColumn → Prop where
  | mk (sqlType : Option SqlType) (userType : Option Name) (isNullable : Option Bool) :
    IsValue aggregate { sqlType, userType, isNullable, aggregate }

namespace ResultColumn

theorem IsValue.aggregate_eq {aggregate : Option String} {c : ResultColumn}
    (h : c.IsValue aggregate) :
    c.aggregate = aggregate := by
  cases h
  rfl

theorem isValue_literal (value : Literal) : value.column.IsValue none := by
  cases value <;> exact .mk ..

theorem isValue_binary (op : BinaryOp) (left right : ResultColumn) :
    (binary op left right).IsValue none := by
  unfold binary truth
  dsimp only
  repeat' split
  all_goals exact .mk ..

theorem isValue_unary (op : UnaryOp) (operand : ResultColumn) :
    (unary op operand).IsValue none := by
  unfold unary truth
  split <;> exact .mk ..

end ResultColumn

namespace Analysis

open ResultColumn

theorem returns_variableColumn (name : String) : Returns (IsValue none) (variableColumn name) := by
  unfold variableColumn
  split
  · split <;> exact .pure (.mk ..)
  · refine .bind fun b => ?_
    split <;> exact .pure (.mk ..)

theorem returns_aggregateCall (name : Name) (windowed : Bool) (arg : Option (Expr × Meaning)) :
    Returns (IsValue (if windowed then none else some (Text.fold name.name)))
      (aggregateCall name windowed arg) := by
  cases arg <;> exact .bind fun operand => .pure (.mk ..)

theorem returns_fixedCall (name : Name) (sqlType : SqlType) (isNullable : Option Bool)
    (args : List Meaning) :
    Returns (IsValue none) (fixedCall name sqlType isNullable args) := by
  cases isNullable with
  | some isNullable => exact .pure (.mk ..)
  | none => exact .bind fun operands => .pure (.mk ..)

end Analysis

namespace Expr

open Analysis ResultColumn

/-- An expression that makes a value of its own comes to one, whatever its parts are. -/
theorem returns_value {e : Expr} (h : e.makesValue = true) (n : Nested) :
    Returns (fun c => ∃ aggregate, c.IsValue aggregate) (e.resolve n) := by
  have hnone {x : Analysis ResultColumn} (hx : Returns (IsValue none) x) :
      Returns (fun c => ∃ aggregate, c.IsValue aggregate) x := hx.imp fun _ hc => ⟨none, hc⟩
  cases e with
  | literal value => exact hnone (.pure (isValue_literal value))
  | var name => exact hnone (returns_variableColumn name)
  | unary op operand => exact hnone (.bind fun c => .pure (isValue_unary op c))
  | binary op left right =>
    rw [resolve_binary]
    exact hnone (.bind fun l => .bind fun r => .pure (isValue_binary op l r))
  | «exists» | isNull | inList => exact hnone (.pure (.mk ..))
  | call name args distinct windowed =>
    rw [resolve_call, call_eq]
    rw [makesValue] at h
    cases hrule : BuiltinRule.ofCall? name with
    | none => simp [hrule] at h
    | some rule => cases rule with
      | aggregate => exact (returns_aggregateCall name windowed _).imp fun _ hc => ⟨_, hc⟩
      | fixed sqlType isNullable => exact hnone (returns_fixedCall name sqlType isNullable _)
      | unboundedText => exact hnone (.pure (.mk ..))
      | _ => simp [hrule] at h
  | _ => cases h

end Expr

end ResultShape
