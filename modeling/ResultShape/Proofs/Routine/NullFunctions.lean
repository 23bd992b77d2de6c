import ResultShape.Proofs.Analysis.NullFunctions
/-! `COALESCE` and `NULLIF` in routines: routines that differ only in how they write
the two have the same model. -/
namespace ResultShape

/-- Writes `COALESCE` and `NULLIF` as calls, except for a `COALESCE` within reach of the value of an
operand of an aggregate in which a number is within reach, too. -/
def Rewriting.calling : Rewriting := { expr := Expr.partsAsCalls, value := Expr.asCalls false }

namespace Rewriting

theorem faithful_calling : calling.Faithful where
  head := Expr.head_partsAsCalls
  literalHint := Expr.literalHint_partsAsCalls
  value_literal? e := by
    change (e.asCalls false).literal? = e.literal?
    rw [Expr.literal?_eq_form, Expr.literal?_eq_form, Expr.form_asCalls]
  value_isAggregate := Expr.isAggregate_asCalls false
  name _ := rfl
  meaning := Expr.meaning_partsAsCalls
  resolve_value e n := (e.stands_asCalls false n).column

theorem keepsQueries_calling : calling.KeepsQueries where
  expr e := by cases e <;> rfl
  value e := by cases e <;> rfl

end Rewriting

namespace Routine

/-- The routine with `COALESCE` and `NULLIF` written as calls. A `COALESCE` that adds to the value
of an aggregate's operand stays as it is if a number does, too. -/
def withCalls (r : Routine) : Routine := r.rewrite .calling

/-- Routines that differ only in how they write `COALESCE` and `NULLIF` have
the same model, or fail alike. -/
theorem model_eq_of_withCalls_eq (catalog : Catalog) (config : Config) {r r' : Routine}
    (h : r.withCalls = r'.withCalls) :
    r.model catalog config = r'.model catalog config := by
  rw [← r.model_rewrite Rewriting.faithful_calling Rewriting.keepsQueries_calling,
    ← r'.model_rewrite Rewriting.faithful_calling Rewriting.keepsQueries_calling]
  exact congrArg (·.model catalog config) h

/-- `SELECT COALESCE(NULLIF(1, 2), 3) AS x, SUM(COALESCE(NULL, MONTH(1))) AS s`. -/
private def combining (coalesce : List Expr → Expr) (nullif : Expr → Expr → Expr) : Routine :=
  let number (value : Int) : Expr := .literal (.int value)
  let month : Expr := .call (.bare "MONTH") [number 1] false false
  let items : List Item := [
    .expr (coalesce [nullif (number 1) (number 2), number 3]) (some "x"),
    .expr (.call (.bare "SUM") [coalesce [.literal .null, month]] false false) (some "s")]
  let q : Query := ⟨.select ⟨false, none, items, none, [], none, [], none⟩, [], [], none, none⟩
  ⟨.procedure, .bare "p", [], [.action (.select q)], none, none⟩

theorem model_eq_of_withCalls_eq_combining :
    let r := combining .coalesce .nullif
    let r' :=
      combining (.call (.bare "COALESCE") · false false) (.call (.bare "NULLIF") [·, ·] false false)
    r.withCalls = r'.withCalls ∧
      (r.model (.builtinOnly {}) {}).map (·.resultSets.map (·.columns.map (·.sqlType))) =
        .ok [[some .int, some .int]] ∧
      r.model (.builtinOnly {}) {} = r'.model (.builtinOnly {}) {} :=
  ⟨rfl, rfl, model_eq_of_withCalls_eq _ _ rfl⟩

/-- `SELECT MAX(e) AS m`. -/
private def greatest (e : Expr) : Routine :=
  let items : List Item := [.expr (.call (.bare "MAX") [e] false false) (some "m")]
  let q : Query := ⟨.select ⟨false, none, items, none, [], none, [], none⟩, [], [], none, none⟩
  ⟨.procedure, .bare "p", [], [.action (.select q)], none, none⟩

/-- In `MAX(COALESCE(1, 2))` the literals count as long as `COALESCE` is no call. -/
theorem greatest_of_literals :
    let one_two : List Expr := [.literal (.int 1), .literal (.int 2)]
    let types (e : Expr) :=
      ((greatest e).model (.builtinOnly {}) {}).map (·.resultSets.map (·.columns.map (·.sqlType)))
    types (.coalesce one_two) = .ok [[none]] ∧
      types (.call (.bare "COALESCE") one_two false false) = .ok [[some .int]] := ⟨rfl, rfl⟩

end Routine

end ResultShape
