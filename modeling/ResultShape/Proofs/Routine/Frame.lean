import ResultShape.Proofs.Routine.Bindings
import ResultShape.Proofs.Routine.Rewriting
/-! Frames: an action that binds no variable leaves every property of the bindings as it is if
making the tables of the action does. -/
namespace ResultShape

/-- The action declares variables or assigns to one. -/
def Action.bindsVariables : Action → Bool
  | .declare _ | .set .. => true
  | _ => false

/-- The names of the tables that the action makes: one that it declares, or
one that its query fills. -/
def Action.tables : Action → List String
  | .declareTable table _ => [table]
  | .select query => query.firstSelect.into.toList
  | .return value => ((value.bind Expr.query?).bind fun q => q.firstSelect.into).toList
  | _ => []

namespace Walk

open Analysis

variable {P : Bindings → List String → Prop} {env : Env}

/-- The bindings, and the variables that wait for a type, have the property. -/
def Bound (P : Bindings → List String → Prop) (f : Findings) : Prop :=
  f.context.Anchored ∧ P f.context.bindings f.untyped

private theorem bound_ask {α : Type} {x : Nested → Analysis α}
    (hx : ∀ n inProgress, Keeps env Eq inProgress (x (Nested.within n))) :
    Stays (Bound P) env (fun _ => True) (ask x) := by
  intro f hf a f' h
  obtain ⟨c, rfl, hk⟩ := kept_of_ask hx hf.1 h
  refine ⟨trivial, hk.anchored, ?_⟩
  rw [hk.bindings]
  exact hf.2

private theorem bound_bindTable {table : String}
    (h : ∀ b u made, P b u → P (b.bindTable table made) u)
    (made : ColumnMap) : Stays (Bound P) env (fun _ => True) (bindings (·.bindTable table made)) :=
  .modify fun _ hf => ⟨hf.1, h _ _ _ hf.2⟩

private theorem bound_selectQuery {q : Query}
    (h : ∀ table, q.firstSelect.into = some table → ∀ b u made, P b u →
      P (b.bindTable table made) u) :
    Stays (Bound P) env (fun _ => True) (selectQuery q) := by
  refine .bind (bound_ask fun n inProgress => (Keeps.within env n inProgress q).1) fun set _ => ?_
  split
  next table hinto => exact bound_bindTable (h table hinto) _
  next =>
    split
    · exact .modify fun _ hf => hf
    · exact .pure trivial

private theorem bound_execute (call : Execute) :
    Stays (Bound P) env (fun _ => True) (execute call) :=
  .defaultSchema (.modify fun _ hf => hf)

private theorem bound_output (ctes : List Cte) (target : Source) (sources : List Source)
    (isMerge : Bool)
    (o : Option OutputClause) : Stays (Bound P) env (fun _ => True)
    (output ctes target sources isMerge o) := by
  cases o with
  | none => exact .pure trivial
  | some clause =>
    unfold Walk.output
    dsimp only
    split
    · exact .pure trivial
    · exact .bind (bound_ask fun n inProgress =>
        .changedRows env n inProgress ctes target sources isMerge clause.items)
        fun _ _ => .modify fun _ hf => hf

/-- What holds of the bindings and goes on to hold when the tables of the action are
made holds behind the action. -/
theorem bound_action (returnsTable : Bool) {a : Action} (ha : a.bindsVariables = false)
    (h : ∀ table ∈ a.tables, ∀ b u made, P b u → P (b.bindTable table made) u) :
    Stays (Bound P) env (fun _ => True) (action returnsTable a) := by
  cases a with
  | select query => exact bound_selectQuery fun table ht => h table (Option.mem_toList.2 ht)
  | insert s =>
    have ho : Stays (Bound P) env _ _ := bound_output s.ctes s.target [] false s.output
    unfold Walk.action
    dsimp only
    split
    · exact .bind (bound_execute _) fun _ _ => ho
    · exact ho
  | update s => exact bound_output _ _ _ _ _
  | delete s => exact bound_output _ _ _ _ _
  | merge s => exact bound_output _ _ _ _ _
  | execute call => exact bound_execute call
  | declare declarations => cases ha
  | declareTable table definitions =>
    exact .catalog (bound_bindTable (h table List.mem_cons_self) _)
  | set name value => cases ha
  | «return» value =>
    rw [action_return]
    split
    · rw [Action.tables] at h
      cases hq : value.bind Expr.query? with
      | none => exact .pure trivial
      | some q =>
        rw [hq] at h
        exact bound_selectQuery fun table ht => h table (Option.mem_toList.2 ht)
    · exact .pure trivial
  | other text => exact .pure trivial

end Walk

end ResultShape
