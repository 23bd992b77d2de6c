import ResultShape.Proofs.Routine.ControlFlow
/-! Inline table functions: where the value of a function is a table, a query that it returns is
walked as a query that stands for itself. Parentheses around the returned query hide it. -/
namespace ResultShape

/-- A query that stands for itself is returned instead. -/
def Action.withReturn : Action → Action
  | .select query => .return (some (.subquery query))
  | a => a

namespace Walk

/-- Where a table is returned it makes no difference whether a query stands for itself. -/
theorem action_withReturn (a : Action) : action true a.withReturn = action true a := by
  cases a with
  | select query => exact action_return true (some (.subquery query))
  | _ => rfl

/-- A value in parentheses is returned without a look at it. -/
theorem action_return_paren (returnsTable : Bool) (e : Expr) :
    action returnsTable (.return (some (.paren e))) = return := by
  rw [action_return]
  exact ite_self _

end Walk

namespace Routine

/-- The routine with every query that stands for itself returned instead,
wherever in the body it does. -/
def withReturns (r : Routine) : Routine :=
  { r with body := Statement.mapAll id Action.withReturn r.body }

/-- A table function with returned queries is walked from every state as with
those that stand for themselves. -/
theorem walk_withReturns {r : Routine} (hk : r.kind = .tableFunction) :
    Walk.routine r.withReturns = Walk.routine r := by
  have hbody : Walk.statements (r.withReturns.kind == .tableFunction) r.withReturns.body =
      Walk.statements (r.kind == .tableFunction) r.body := by
    rw [withReturns, hk]
    exact Walk.statements_mapAll id Walk.action_withReturn r.body
  rw [Walk.routine, Walk.routine, hbody]
  rfl

/-- Table functions that differ only in which queries they return and which stand for
themselves have the same model, or fail alike: `WITH` clauses, `INTO` and queries
that send no column included. -/
theorem model_eq_of_withReturns_eq (catalog : Catalog) (config : Config) {r r' : Routine}
    (hk : r.kind = .tableFunction)
    (h : r.withReturns = r'.withReturns) : r.model catalog config = r'.model catalog config := by
  have hk' : r'.kind = .tableFunction := (congrArg kind h).symm.trans hk
  rw [model, model, ← walk_withReturns hk, ← walk_withReturns hk', h]

/-- `SELECT 1 AS x`, with a target where one is given. -/
private def selectOne (target : Option String) : Query :=
  ⟨.select ⟨false, none, [.expr (.literal (.int 1)) (some "x")], target, [], none, [], none⟩, [],
    [], none, none⟩

/-- `BEGIN SELECT 1 AS x INTO #t; WITH c AS (SELECT 1 AS x) SELECT * FROM c, #t; END`, with either
query written in the given way. -/
private def selecting (write : Query → Action) : Routine :=
  let both : Query :=
    ⟨.select
      ⟨false, none, [.star none], none, [.named (.bare "c") none, .named (.bare "#t") none],
        none, [], none⟩,
      [⟨"c", [], selectOne none⟩], [], none, none⟩
  ⟨.tableFunction, .bare "f", [],
    [.block [.action (write (selectOne (some "#t"))), .action (write both)]], none, none⟩

theorem model_eq_of_withReturns_eq_selecting :
    let r := selecting .select
    let r' := selecting fun q => .return (some (.subquery q))
    r.withReturns = r'.withReturns ∧
      (r.model (.builtinOnly {}) {}).map (·.resultSets.map (·.columnNames)) = .ok [["x", "#t_x"]] ∧
      r.model (.builtinOnly {}) {} = r'.model (.builtinOnly {}) {} :=
  ⟨rfl, rfl, model_eq_of_withReturns_eq _ _ rfl rfl⟩

/-- `RETURN ((SELECT 1 AS x))` returns nothing, unlike `SELECT 1 AS x`. -/
theorem returned_in_parentheses_lost :
    let function (a : Action) : Routine := ⟨.tableFunction, .bare "f", [], [.action a], none, none⟩
    let names (a : Action) :=
      ((function a).model (.builtinOnly {}) {}).map (·.resultSets.map (·.columnNames))
    names (.select (selectOne none)) = .ok [["x"]] ∧
      names (.return (some (.paren (.subquery (selectOne none))))) = .ok [] := ⟨rfl, rfl⟩

end Routine

end ResultShape
