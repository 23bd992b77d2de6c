import ResultShape.Proofs.Routine.Rules
import ResultShape.Proofs.Sql.Constructs
import ResultShape.Proofs.Sql.Rewriting
/-! Routines rewritten, what a routine contains, and that the control flow around
its actions does not matter. -/
namespace ResultShape

def VariableDeclaration.rewrite (ρ : Rewriting) (d : VariableDeclaration) : VariableDeclaration :=
  ⟨ρ.name d.name, d.type, d.default.map fun e => ρ.value (e.rewrite ρ)⟩

def ColumnDefinition.rewrite (ρ : Rewriting) (d : ColumnDefinition) : ColumnDefinition :=
  { d with name := ρ.name d.name }

def Parameter.rewrite (ρ : Rewriting) (p : Parameter) : Parameter :=
  { p with name := ρ.name p.name }

def OutputClause.rewrite (ρ : Rewriting) (o : OutputClause) : OutputClause :=
  ⟨o.items.map (Item.rewrite ρ), o.into.map (Name.rewrite ρ)⟩

def Execute.rewrite (ρ : Rewriting) (e : Execute) : Execute :=
  ⟨e.procedure.rewrite ρ, e.args.map fun e => ρ.value (e.rewrite ρ), e.returnVariable.map ρ.name⟩

def InsertSource.rewrite (ρ : Rewriting) : InsertSource → InsertSource
  | .values rows => .values (rows.map (·.map fun e => ρ.value (e.rewrite ρ)))
  | .query q => .query (q.rewrite ρ)
  | .execute call => .execute (call.rewrite ρ)
  | .defaultValues => .defaultValues

def Insert.rewrite (ρ : Rewriting) (s : Insert) : Insert where
  ctes := s.ctes.map (Cte.rewrite ρ)
  target := s.target.rewrite ρ
  columns := s.columns.map ρ.name
  source := s.source.rewrite ρ
  output := s.output.map (OutputClause.rewrite ρ)

def Change.rewrite (ρ : Rewriting) (s : Change) : Change where
  ctes := s.ctes.map (Cte.rewrite ρ)
  target := s.target.rewrite ρ
  sources := s.sources.map (Source.rewrite ρ)
  output := s.output.map (OutputClause.rewrite ρ)

def Merge.rewrite (ρ : Rewriting) (s : Merge) : Merge where
  ctes := s.ctes.map (Cte.rewrite ρ)
  target := s.target.rewrite ρ
  source := s.source.rewrite ρ
  on := s.on.map fun e => ρ.value (e.rewrite ρ)
  output := s.output.map (OutputClause.rewrite ρ)

def Action.rewrite (ρ : Rewriting) : Action → Action
  | .select query => .select (query.rewrite ρ)
  | .insert s => .insert (s.rewrite ρ)
  | .update s => .update (s.rewrite ρ)
  | .delete s => .delete (s.rewrite ρ)
  | .merge s => .merge (s.rewrite ρ)
  | .execute call => .execute (call.rewrite ρ)
  | .declare declarations => .declare (declarations.map (·.rewrite ρ))
  | .declareTable name columns => .declareTable (ρ.name name) (columns.map (·.rewrite ρ))
  | .set name value => .set (ρ.name name) (ρ.value (value.rewrite ρ))
  | .return value => .return (value.map fun e => ρ.value (e.rewrite ρ))
  | .other text => .other (ρ.name text)

mutual

def Statement.rewrite (ρ : Rewriting) : Statement → Statement
  | .action a => .action (a.rewrite ρ)
  | .block body => .block (Statement.rewriteAll ρ body)
  | .ifElse condition yes no =>
    .ifElse (ρ.value (condition.rewrite ρ)) (yes.rewrite ρ) (Statement.rewrite? ρ no)
  | .while condition body => .while (ρ.value (condition.rewrite ρ)) (body.rewrite ρ)
  | .tryCatch body handler =>
    .tryCatch (Statement.rewriteAll ρ body) (Statement.rewriteAll ρ handler)

def Statement.rewriteAll (ρ : Rewriting) : List Statement → List Statement
  | [] => []
  | s :: rest => s.rewrite ρ :: Statement.rewriteAll ρ rest

def Statement.rewrite? (ρ : Rewriting) : Option Statement → Option Statement
  | none => none
  | some s => some (s.rewrite ρ)

end

/-- The routine with other names in it. The types that it names are those
of the catalog and stay. -/
def Routine.rewrite (ρ : Rewriting) (r : Routine) : Routine where
  kind := r.kind
  name := r.name.rewrite ρ
  parameters := r.parameters.map (·.rewrite ρ)
  body := Statement.rewriteAll ρ r.body
  returnTable := r.returnTable.map fun (name, columns) => (ρ.name name, columns.map (·.rewrite ρ))
  sourceText := r.sourceText.map ρ.name

theorem Statement.actionsAll_rewriteAll (ρ : Rewriting) (ss : List Statement) :
    actionsAll (rewriteAll ρ ss) = (actionsAll ss).map (Action.rewrite ρ) := by
  have hone (s : Statement) : (s.rewrite ρ).actions = s.actions.map (Action.rewrite ρ) := by
    induction s using Statement.actions.induct
      (motive_2 := fun o =>
        actionsOtherwise (rewrite? ρ o) = (actionsOtherwise o).map (Action.rewrite ρ))
      (motive_3 := fun ss =>
        actionsAll (rewriteAll ρ ss) = (actionsAll ss).map (Action.rewrite ρ)) <;>
    simp_all only [rewrite, rewriteAll, rewrite?, actions, actionsAll, actionsOtherwise,
      List.map_append, List.map_cons, List.map_nil]
  induction ss with
  | nil => rfl
  | cons s ss ih => rw [rewriteAll, actionsAll, actionsAll, List.map_append, hone, ih]

theorem Statement.actionsAll_map_action (as : List Action) : actionsAll (as.map .action) = as := by
  induction as with
  | nil => rfl
  | cons a as ih => rw [List.map_cons, actionsAll, ih, actions, List.singleton_append]

/-- The query that an expression is, with no parentheses around it. -/
def Expr.query? : Expr → Option Query
  | .subquery query => some query
  | _ => none

namespace Walk

/-- One action as a statement of its own. -/
def step (returnsTable : Bool) (a : Action) : Walk Unit := do
  modify fun f => { f with context := f.context.nextStatement }
  action returnsTable a

/-- Statements come to the same as the actions in them, one after the other. -/
theorem statements_eq_forM (returnsTable : Bool) (ss : List Statement) :
    statements returnsTable ss = (Statement.actionsAll ss).forM (step returnsTable) := by
  have hone (s : Statement) : statement returnsTable s = s.actions.forM (step returnsTable) := by
    induction s using Statement.actions.induct
      (motive_2 := fun o =>
        otherwise returnsTable o = (Statement.actionsOtherwise o).forM (step returnsTable))
      (motive_3 := fun ss =>
        statements returnsTable ss = (Statement.actionsAll ss).forM (step returnsTable)) <;>
    simp_all only [statement, statements, otherwise, Statement.actions, Statement.actionsAll,
      Statement.actionsOtherwise, List.forM_eq_forM, List.forM_append, List.forM_cons,
      List.forM_nil, bind_pure_unit, step]
  induction ss with
  | nil => rfl
  | cons s ss ih =>
    rw [statements, hone, ih, Statement.actionsAll]
    simp only [List.forM_eq_forM, List.forM_append]

/-- The statements of a body come to the same as its first actions and then the others. -/
theorem statements_split (returnsTable : Bool) (ss : List Statement) (n : Nat) :
    statements returnsTable ss =
      statements returnsTable (((Statement.actionsAll ss).take n).map .action) >>= fun _ =>
        statements returnsTable (((Statement.actionsAll ss).drop n).map .action) := by
  rw [statements_eq_forM, statements_eq_forM, statements_eq_forM, Statement.actionsAll_map_action,
    Statement.actionsAll_map_action, List.forM_eq_forM, ← List.forM_append, List.take_append_drop]

theorem action_return (returnsTable : Bool) (value : Option Expr) :
    action returnsTable (.return value) =
      if returnsTable then (value.bind Expr.query?).elim (return) selectQuery else return := by
  unfold action
  split <;> rename_i h <;> cases h
  · rfl
  · rename_i hquery
    have hnone : value.bind Expr.query? = none := by
      cases value with
      | none => rfl
      | some e => cases e <;> first | exact absurd rfl (hquery _) | rfl
    rw [hnone]
    exact (ite_self _).symm

end Walk

/-- The constructs of an expression, those of the queries in it among them. -/
def Expr.allConstructs (e : Expr) : List Construct :=
  e.constructs ++ e.queries.flatMap Query.constructs

/-- The constructs of a change that its `OUTPUT` clause may read. -/
def outputConstructs (ctes : List Cte) (sources : List Source) (output : Option OutputClause) :
    List Construct :=
  let items := output.elim [] (·.items)
  ctes.flatMap (·.query.constructs) ++
    sources.flatMap (fun s => s.constructs ++ s.queries.flatMap Query.constructs) ++
      items.flatMap fun i => i.constructs ++ i.queries.flatMap Query.constructs

def VariableDeclaration.constructs (d : VariableDeclaration) : List Construct :=
  .dataType d.type :: d.default.elim [] Expr.allConstructs

def columnConstructs (columns : List ColumnDefinition) : List Construct :=
  columns.map fun c => .dataType c.type

def Action.constructs : Action → List Construct
  | .select query => query.constructs
  | .insert s => outputConstructs s.ctes [s.target] s.output
  | .update s | .delete s => outputConstructs s.ctes (s.target :: s.sources) s.output
  | .merge s => outputConstructs s.ctes [s.target, s.source] s.output
  | .declare declarations => declarations.flatMap (·.constructs)
  | .declareTable _ columns => columnConstructs columns
  | .set _ value => value.allConstructs
  | .return value => value.elim [] Expr.allConstructs
  | .execute _ | .other _ => []

/-- The constructs of a routine that may give a column or a variable its type or its nullability. -/
def Routine.constructs (r : Routine) : List Construct :=
  r.parameters.map (fun p => .dataType p.type) ++ r.returnTable.elim [] (columnConstructs ·.2) ++
    r.actions.flatMap Action.constructs

end ResultShape
