import ResultShape.Proofs.Routine.Rewriting
/-! Control flow: a walk over a routine depends on the actions in its body and on their order, not
on the blocks, branches, loops and handlers that they stand in. -/
namespace ResultShape

mutual

/-- The statement with other conditions in its control flow and other actions in their places. -/
def Statement.map (condition : Expr → Expr) (action : Action → Action) : Statement → Statement
  | .action a => .action (action a)
  | .block body => .block (Statement.mapAll condition action body)
  | .ifElse e yes no =>
    .ifElse (condition e) (yes.map condition action) (Statement.map? condition action no)
  | .while e body => .while (condition e) (body.map condition action)
  | .tryCatch body handler =>
    .tryCatch (Statement.mapAll condition action body) (Statement.mapAll condition action handler)

def Statement.mapAll (condition : Expr → Expr) (action : Action → Action) :
    List Statement → List Statement
  | [] => []
  | s :: rest => s.map condition action :: Statement.mapAll condition action rest

def Statement.map? (condition : Expr → Expr) (action : Action → Action) :
    Option Statement → Option Statement
  | none => none
  | some s => some (s.map condition action)

end

theorem Statement.actionsAll_mapAll (condition : Expr → Expr) (action : Action → Action)
    (ss : List Statement) :
    actionsAll (mapAll condition action ss) = (actionsAll ss).map action := by
  have hone (s : Statement) : (s.map condition action).actions = s.actions.map action := by
    induction s using Statement.actions.induct
      (motive_2 := fun o => actionsOtherwise (map? condition action o) =
        (actionsOtherwise o).map action)
      (motive_3 := fun ss =>
        actionsAll (mapAll condition action ss) = (actionsAll ss).map action) <;>
    simp_all only [Statement.map, mapAll, map?, actions, actionsAll, actionsOtherwise,
      List.map_append, List.map_cons, List.map_nil]
  induction ss with
  | nil => rfl
  | cons s ss ih => rw [mapAll, actionsAll, actionsAll, List.map_append, hone, ih]

/-- Statements with the same actions in them are walked alike. -/
theorem Walk.statements_congr {ss ss' : List Statement}
    (h : Statement.actionsAll ss = Statement.actionsAll ss')
    (returnsTable : Bool) : statements returnsTable ss = statements returnsTable ss' := by
  rw [statements_eq_forM, statements_eq_forM, h]

/-- The conditions of the control flow do not matter, and an action gives way
to one that is walked alike. -/
theorem Walk.statements_mapAll (condition : Expr → Expr) {g : Action → Action} {returnsTable : Bool}
    (h : ∀ a, action returnsTable (g a) = action returnsTable a) (ss : List Statement) :
    statements returnsTable (Statement.mapAll condition g ss) = statements returnsTable ss := by
  have hstep (a : Action) : step returnsTable (g a) = step returnsTable a := by rw [step, step, h]
  rw [statements_eq_forM, statements_eq_forM, Statement.actionsAll_mapAll, List.forM_eq_forM,
    List.forM_map]
  simp only [hstep]

namespace Routine

/-- The routine with the actions in its body as one list of statements. -/
def flat (r : Routine) : Routine := { r with body := r.actions.map .action }

theorem actions_flat (r : Routine) : r.flat.actions = r.actions :=
  Statement.actionsAll_map_action r.actions

-- The branch for `true` comes before the other one, and what is tried before its handler.
example (condition : Expr) (a b c d e : Action) :
    (flat ⟨.procedure, .bare "p", [],
      [.ifElse condition (.block [.action a, .while condition (.action b)]) (some (.action c)),
        .tryCatch [.action d] [.block [], .action e]], none, none⟩).body =
      [.action a, .action b, .action c, .action d, .action e] := rfl

/-- The walk over the flat routine does the same from every state, in every environment. -/
theorem walk_flat (r : Routine) : Walk.routine r.flat = Walk.routine r := by
  have hbody (returnsTable : Bool) :
      Walk.statements returnsTable r.flat.body = Walk.statements returnsTable r.body :=
    Walk.statements_congr r.actions_flat returnsTable
  rw [Walk.routine, Walk.routine, hbody]
  rfl

/-- A routine and the flat one have one model, or fail with one error. -/
theorem model_flat (catalog : Catalog) (config : Config) (r : Routine) :
    r.flat.model catalog config = r.model catalog config := by
  rw [model, model, walk_flat]

end Routine

end ResultShape
