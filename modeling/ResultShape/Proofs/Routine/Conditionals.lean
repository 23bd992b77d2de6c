import ResultShape.Proofs.Alike.Same
import ResultShape.Proofs.Typing.Nullability
import ResultShape.Proofs.Typing.Precedence
/-! Conditionals: `IIF` is a `CASE` with one `WHEN` and an `ELSE`, and a `CASE` without `ELSE`
is one with `ELSE NULL`, to all that is around them. Routines that differ only in how they
write these have the same model. -/
namespace ResultShape

/-- A null, as a branch. -/
def ResultColumn.Candidate.null : ResultColumn.Candidate := ⟨.literal .null, Literal.null.column⟩

namespace ResultColumn

/-- A null in the place of a missing `ELSE` has no type, may be null and does not compete. -/
theorem conditional_append_null (branches : List Candidate) :
    conditional (branches ++ [.null]) true = conditional branches false := by
  have htypes : SqlType.mergeAll ((branches ++ [Candidate.null]).map (·.column.sqlType)) =
      SqlType.mergeAll (branches.map (·.column.sqlType)) := by
    rw [List.map_append]
    exact SqlType.mergeAll_append_none _
  have hnullable (start : Option Bool) :
      ((branches ++ [Candidate.null]).map (·.column.isNullable)).foldl eitherNullable start =
        some true := by
    rw [List.map_append, List.foldl_append]
    exact eitherNullable_eq_true_iff.2 (.inr rfl)
  have hcandidates : (branches ++ [Candidate.null]).filter (!·.isNullLiteral) =
      branches.filter (!·.isNullLiteral) := by
    rw [List.filter_append]
    exact List.append_nil _
  unfold conditional
  rw [htypes, hnullable, hcandidates, Bool.not_false, foldl_eitherNullable_true]

end ResultColumn

namespace Meaning

/-- A null, as a branch. -/
def null : Expr × Meaning := (.literal .null, ofLiteral .null)

/-- Asked last, a null does not make a list of branches typed. -/
private theorem anyTyped_append_null (ms : List Meaning) :
    anyTyped (ms ++ [null.2]) = anyTyped ms := by
  induction ms with
  | nil => rfl
  | cons m ms ih => rw [List.cons_append, anyTyped, ih, anyTyped]

/-- Branches with a null at their end have the meaning of those without an `ELSE`. -/
theorem ofBranches_append_null (branches : List (Expr × Meaning)) :
    ofBranches (branches ++ [null]) true = ofBranches branches false := by
  have hcolumn :
      Analysis.conditional (branches ++ [null]) true = Analysis.conditional branches false := by
    unfold Analysis.conditional
    rw [List.mapM_append, bind_assoc]
    refine bind_congr fun candidates => ?_
    rw [← ResultColumn.conditional_append_null]
    rfl
  have htyped : anyTyped ((branches ++ [null]).map (·.2)) = anyTyped (branches.map (·.2)) := by
    rw [List.map_append]
    exact anyTyped_append_null _
  rw [ofBranches, hcolumn, htyped, ofBranches]

end Meaning

namespace Expr

/-- `IIF` as a `CASE`, and a `CASE` without `ELSE` as one with `ELSE NULL`. -/
def asCase : Expr → Expr
  | .iif condition yes no => .case none [⟨condition, yes⟩] (some no)
  | .case operand branches none => .case operand branches (some (.literal .null))
  | e => e

theorem meaning_asCase (e : Expr) (n : Nested) : e.asCase.meaning n = e.meaning n := by
  cases e with
  | iif condition yes no => rw [asCase, meaning, meaning]; rfl
  | case operand branches otherwise =>
    cases otherwise with
    | none =>
      rw [asCase, meaning, meaning, otherwiseMeaning, otherwiseMeaning, meaning, List.append_nil]
      exact Meaning.ofBranches_append_null _
    | some e => rfl
  | _ => rfl

theorem literalHint_asCase (e : Expr) : e.asCase.literalHint = e.literalHint := by
  cases e with
  | iif condition yes no =>
    have hnone (h : Option LiteralHint) : LiteralHint.merge h none = h := by
      rcases h with _ | _ | _ <;> rfl
    simp only [asCase, literalHint, branchesHint, otherwiseHint, hnone]
  | case operand branches otherwise =>
    cases otherwise with
    | none => rfl
    | some e => rfl
  | _ => rfl

theorem head_asCase (e : Expr) : e.asCase.head = e.head := by
  cases e with
  | case operand branches otherwise => cases otherwise <;> rfl
  | _ => rfl

theorem query?_asCase (e : Expr) : e.asCase.query? = e.query? := by
  cases e with
  | case operand branches otherwise => cases otherwise <;> rfl
  | _ => rfl

end Expr

/-- Writes each conditional as a `CASE` with an `ELSE`. -/
def Rewriting.casing : Rewriting := { expr := Expr.asCase }

namespace Rewriting

theorem faithful_casing : casing.Faithful where
  head := Expr.head_asCase
  literalHint := Expr.literalHint_asCase
  value_literal? _ := rfl
  value_isAggregate _ := rfl
  name _ := rfl
  meaning := Expr.meaning_asCase
  resolve_value _ _ := rfl

theorem keepsQueries_casing : casing.KeepsQueries where
  expr := Expr.query?_asCase
  value _ := rfl

end Rewriting

namespace Routine

/-- The routine with every conditional in it, at any level, written as a `CASE` with an `ELSE`. -/
def withCases (r : Routine) : Routine := r.rewrite .casing

/-- Routines that differ only in how they write `IIF` and a missing `ELSE` have
the same model, or fail alike. -/
theorem model_eq_of_withCases_eq (catalog : Catalog) (config : Config) {r r' : Routine}
    (h : r.withCases = r'.withCases) :
    r.model catalog config = r'.model catalog config := by
  rw [← r.model_rewrite Rewriting.faithful_casing Rewriting.keepsQueries_casing,
    ← r'.model_rewrite Rewriting.faithful_casing Rewriting.keepsQueries_casing]
  exact congrArg (·.model catalog config) h

/-- `SELECT SUM(i) AS s, m AS n WHERE EXISTS (SELECT i)`, where `i` is `IIF(2 IS NULL, 1, m)`, `m`
is `CASE WHEN 1 IS NULL THEN MONTH(1) END` and both are written in the given way. -/
private def choosing (choose : Expr → Expr → Expr → Expr) (given : Expr → Expr → Expr) : Routine :=
  let number (value : Int) : Expr := .literal (.int value)
  let select (items : List Item) (condition : Option Expr) : Query :=
    ⟨.select ⟨false, none, items, none, [], condition, [], none⟩, [], [], none, none⟩
  let month := given (.isNull (number 1) false) (.call (.bare "MONTH") [number 1] false false)
  let choice := choose (.isNull (number 2) false) (number 1) month
  let q :=
    select [.expr (.call (.bare "SUM") [choice] false false) (some "s"), .expr month (some "n")]
    (some (.exists (select [.expr choice none] none)))
  ⟨.procedure, .bare "p", [], [.action (.select q)], none, none⟩

theorem model_eq_of_withCases_eq_choosing :
    let r := choosing .iif fun condition result => .case none [⟨condition, result⟩] none
    let r' := choosing (fun condition yes no => .case none [⟨condition, yes⟩] (some no))
      fun condition result => .case none [⟨condition, result⟩] (some (.literal .null))
    r.withCases = r'.withCases ∧
      (r.model (.builtinOnly {}) {}).map
        (·.resultSets.map (·.columns.map fun c => (c.sqlType, c.isNullable))) =
        .ok [[(some .int, some true), (some .int, some true)]] ∧
      r.model (.builtinOnly {}) {} = r'.model (.builtinOnly {}) {} :=
  ⟨rfl, rfl, model_eq_of_withCases_eq _ _ rfl⟩

end Routine

end ResultShape
