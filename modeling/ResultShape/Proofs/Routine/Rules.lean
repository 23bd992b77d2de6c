import ResultShape.Proofs.Catalog.Answers
import ResultShape.Proofs.Routine.Outcome
/-! Rules of a walk: a property of walks that sequencing keeps holds of the walk over a whole
routine as soon as it holds of the changes that a walk makes and of the questions that it asks. -/
namespace ResultShape

/-- The three kinds of question that a walk asks of an analysis. -/
structure Questions where
  expr : Expr → Prop
  query : Query → Prop
  output : List Cte → Source → List Source → Bool → List Item → Prop

/-- Every question that an action asks is among the given ones. -/
def Action.Asks (asked : Questions) : Action → Prop
  | .select query => asked.query query
  | .insert s =>
    ∀ clause, s.output = some clause → asked.output s.ctes s.target [] false clause.items
  | .update s =>
    ∀ clause, s.output = some clause → asked.output s.ctes s.target s.sources false clause.items
  | .delete s =>
    ∀ clause, s.output = some clause → asked.output s.ctes s.target s.sources false clause.items
  | .merge s =>
    ∀ clause, s.output = some clause → asked.output s.ctes s.target [s.source] true clause.items
  | .declare declarations => ∀ d ∈ declarations, ∀ e, d.default = some e → asked.expr e
  | .set _ value => asked.expr value
  | .return (some (.subquery query)) => asked.query query
  | _ => True

/-- An action asks nothing but questions. -/
theorem Action.asks_of_forall {asked : Questions} (he : ∀ e, asked.expr e) (hq : ∀ q, asked.query q)
    (ho : ∀ ctes target sources isMerge items, asked.output ctes target sources isMerge items)
    (a : Action) :
    a.Asks asked := by
  unfold Asks
  split
  · exact hq _
  · exact fun _ _ => ho _ _ _ _ _
  · exact fun _ _ => ho _ _ _ _ _
  · exact fun _ _ => ho _ _ _ _ _
  · exact fun _ _ => ho _ _ _ _ _
  · exact fun _ _ e _ => he e
  · exact he _
  · exact hq _
  · trivial

mutual

/-- The actions in a statement, in order. -/
def Statement.actions : Statement → List Action
  | .action a => [a]
  | .block body => Statement.actionsAll body
  | .ifElse _ yes no => yes.actions ++ Statement.actionsOtherwise no
  | .while _ body => body.actions
  | .tryCatch body handler => Statement.actionsAll body ++ Statement.actionsAll handler

def Statement.actionsAll : List Statement → List Action
  | [] => []
  | s :: rest => s.actions ++ Statement.actionsAll rest

def Statement.actionsOtherwise : Option Statement → List Action
  | none => []
  | some s => s.actions

end

def Routine.actions (r : Routine) : List Action := Statement.actionsAll r.body

namespace Walk

/-- A change of what a walk has found that touches neither local tables nor result sets. -/
inductive Minor : (Findings → Findings) → Prop where
  | nextStatement : Minor fun f => { f with context := f.context.nextStatement }
  | bindScalar (name : String) (facts : TypeFacts) :
    Minor fun f =>
      { f with context := { f.context with bindings := f.context.bindings.bindScalar name facts } }
  | untyped (change : List String → List String) : Minor fun f =>
    { f with untyped := change f.untyped }
  | model (change : RoutineModel → RoutineModel) (h : ∀ m, (change m).resultSets = m.resultSets) :
    Minor fun f => { f with model := change f.model }

/-- A property of walks with what they return: `table` holds of the columns of local tables,
`rows` of the result sets of the model. A walk that reads the catalog does not tell apart
catalogs that answer alike. -/
structure Rules (table : ColumnMap → Prop) (rows : ResultSet → Prop)
    (W : ∀ ⦃α : Type⦄, (α → Prop) → Walk α → Prop) : Prop where
  pure : ∀ {α : Type} {Q : α → Prop} {a : α}, Q a → W Q (Pure.pure a)
  bind : ∀ {α β : Type} {Q : α → Prop} {Q' : β → Prop} {x : Walk α} {f : α → Walk β},
    W Q x → (∀ a, Q a → W Q' (f a)) → W Q' (x >>= f)
  catalog : ∀ {β : Type} {Q : β → Prop} {f : Catalog → Walk β}, (∀ c, W Q (f c)) →
    (∀ {c c'}, c.AnswersLike c' → f c = f c') → W Q (catalog >>= f)
  defaultSchema : W (fun _ => True) defaultSchema
  get :
    W (fun f : Findings => ∀ name columns, f.context.bindings.table? name = some columns →
      table columns) get
  minor : ∀ {change : Findings → Findings}, Minor change → W (fun _ => True) (modify change)
  bindTable :
    ∀ name {columns}, table columns → W (fun _ => True) (bindings (·.bindTable name columns))
  addResultSet : ∀ {set}, rows set → W (fun _ => True) (addResultSet set)
  ofInfos : ∀ infos, table (.ofInfos infos)
  ofRows : ∀ {set} renames, rows set → table (.ofColumns set.columns renames)
  ofTable :
    ∀ {columns} name, table columns → rows { columns := columns.values.map (·.project name false) }

variable {table : ColumnMap → Prop} {rows : ResultSet → Prop}
  {W : ∀ ⦃α : Type⦄, (α → Prop) → Walk α → Prop}

/-- The questions whose answers have the property; a result set is fit to be sent. -/
def Answered (rows : ResultSet → Prop) (W : ∀ ⦃α : Type⦄, (α → Prop) → Walk α → Prop) :
    Questions where
  expr e := W (fun _ => True) (ask fun nested => e.resolve nested)
  query q := W rows (ask fun nested => nested.query q)
  output ctes target sources isMerge items :=
    W rows (ask (changedRows ctes target sources isMerge items))

namespace Rules

variable (h : Rules table rows W)

include h

private theorem done : W (fun _ => True) (Pure.pure () : Walk Unit) := h.pure trivial

theorem forM {α : Type} {as : List α} {f : α → Walk PUnit}
    (hf : ∀ a ∈ as, W (fun _ => True) (f a)) :
    W (fun _ => True) (as.forM f) := by
  induction as with
  | nil => exact h.pure trivial
  | cons a as ih =>
    simp only [List.forM_eq_forM, List.forM_cons] at ih ⊢
    exact h.bind (hf a (by simp)) fun _ _ => ih fun b hb => hf b (by simp [hb])

private theorem bindScalar (name : String) (facts : TypeFacts) :
    W (fun _ => True) (bindings (·.bindScalar name facts)) :=
  h.minor (.bindScalar name facts)

private theorem useType (reference : Reference) : W (fun _ => True) (useType reference) := by
  let change (m : RoutineModel) : RoutineModel :=
    if m.parameterTypes.any (·.identity == reference.identity) then m
    else { m with parameterTypes := m.parameterTypes ++ [reference] }
  have hsets : ∀ m, (change m).resultSets = m.resultSets := by
    intro m
    simp only [change]
    split <;> rfl
  have hchange : Walk.useType reference = modify fun f => { f with model := change f.model } := by
    unfold Walk.useType
    congr 1
    funext f
    simp only [change]
    split <;> rfl
  rw [hchange]
  exact h.minor (.model change hsets)

private theorem useUserType (facts : TypeFacts) : W (fun _ => True) (useUserType facts) := by
  unfold Walk.useUserType
  split
  · exact h.useType _
  · exact h.done

private theorem bindTableOfType (name : String) (type : Name) (records : List ColumnRecord) :
    W (fun _ => True) (bindTableOfType name type records) := by
  refine h.catalog (fun _ => ?_) fun hc => by simp only [hc.ofRecords_eq]
  exact h.bind (h.bindTable name (h.ofInfos _)) fun _ _ =>
    h.bind h.defaultSchema fun _ _ => h.useType _

theorem bindParameter (p : Parameter) : W (fun _ => True) (bindParameter p) := by
  refine h.catalog (fun catalog => ?_) fun hc => by simp only [hc.tableTypeColumns?_eq]
  split
  · exact h.bindTableOfType _ _ _
  · refine h.catalog (fun _ => ?_) fun hc => by simp only [hc.resolveType_eq]
    exact h.bind (h.useUserType _) fun _ _ => h.bindScalar _ _

private theorem typeOf {e : Expr} (he : (Answered rows W).expr e) : W (fun _ => True) (typeOf e) :=
  h.bind he fun _ _ => h.pure trivial

private theorem bindUntyped (d : VariableDeclaration) (inferred : Option TypeFacts) :
    W (fun _ => True) (bindUntyped d inferred) := by
  cases inferred with
  | some facts => exact h.bindScalar _ _
  | none =>
    refine h.bind (h.minor (.untyped (Text.fold d.name :: ·))) fun _ _ =>
      h.catalog (fun _ => h.bindScalar _ _) fun hc => ?_
    simp only [hc.resolveType_eq]

private theorem declareVariable (d : VariableDeclaration)
    (hd : ∀ e, d.default = some e → (Answered rows W).expr e) :
    W (fun _ => True) (declareVariable d) := by
  refine h.catalog (fun catalog => ?_) fun hc => by simp only [hc.tableTypeColumns?_eq]
  split
  · exact h.bindTableOfType _ _ _
  · refine h.catalog (fun catalog => ?_) fun hc => by simp only [hc.resolveType?_eq]
    split
    · exact h.bind (h.useUserType _) fun _ _ => h.bindScalar _ _
    · split
      · rename_i e hdefault
        exact h.bind (h.typeOf (hd e hdefault)) fun inferred _ => h.bindUntyped d inferred
      · exact h.bindUntyped d none

private theorem setVariable (name : String) {value : Expr} (hv : (Answered rows W).expr value) :
    W (fun _ => True) (setVariable name value) := by
  refine h.bind h.get fun f _ => ?_
  split
  · exact h.done
  · refine h.bind (h.typeOf hv) fun inferred _ => ?_
    cases inferred with
    | none => exact h.done
    | some facts =>
      exact h.bind (h.bindScalar _ _) fun _ _ =>
        h.minor (.untyped (·.filter (· ≠ Text.fold name)))

theorem declareTable (name : String) (columns : List ColumnDefinition) :
    W (fun _ => True) (declareTable name columns) :=
  h.catalog (fun _ => h.bindTable name (h.ofInfos _)) fun hc => by simp only [hc.ofDefinitions_eq]

private theorem execute (e : Execute) : W (fun _ => True) (execute e) :=
  h.bind h.defaultSchema fun schema _ =>
    let routine : ExecutedRoutine :=
      ⟨e.procedure.catalog, e.procedure.schema.getD schema, e.procedure.name⟩
    h.minor (.model
      (fun m => { m with executedRoutines := m.executedRoutines ++ [routine] }) fun _ => rfl)

private theorem selectQuery {q : Query} (hq : (Answered rows W).query q) :
    W (fun _ => True) (selectQuery q) := by
  refine h.bind hq fun set hs => ?_
  split
  · exact h.bindTable _ (h.ofRows _ hs)
  · split
    · exact h.addResultSet hs
    · exact h.done

private theorem output (ctes : List Cte) (target : Source) (sources : List Source) (isMerge : Bool)
    (o : Option OutputClause)
    (ho : ∀ clause, o = some clause →
      (Answered rows W).output ctes target sources isMerge clause.items) :
    W (fun _ => True) (output ctes target sources isMerge o) := by
  cases o with
  | none => exact h.done
  | some clause =>
    unfold Walk.output
    dsimp only
    split
    · exact h.done
    · exact h.bind (ho clause rfl) fun _ hs => h.addResultSet hs

/-- An action whose questions are all answered. -/
theorem action (returnsTable : Bool) (a : Action) (ha : a.Asks (Answered rows W)) :
    W (fun _ => True) (action returnsTable a) := by
  cases a with
  | select query => exact h.selectQuery ha
  | insert s =>
    have ho := h.output s.ctes s.target [] false s.output ha
    unfold Walk.action
    dsimp only
    split
    · exact h.bind (h.execute _) fun _ _ => ho
    · exact ho
  | update s => exact h.output _ _ _ _ _ ha
  | delete s => exact h.output _ _ _ _ _ ha
  | merge s => exact h.output _ _ _ _ _ ha
  | execute call => exact h.execute call
  | declare declarations => exact h.forM fun d hd => h.declareVariable d (ha d hd)
  | declareTable name columns => exact h.declareTable name columns
  | set name value => exact h.setVariable name ha
  | «return» value =>
    unfold Walk.action
    split <;> rename_i heq <;> cases heq
    · split
      · exact h.selectQuery ha
      · exact h.done
    · exact h.done
  | other text => exact h.done

/-- Statements whose actions all ask what is answered. -/
theorem statement (returnsTable : Bool) (s : Statement)
    (hs : ∀ a ∈ s.actions, a.Asks (Answered rows W)) :
    W (fun _ => True) (statement returnsTable s) := by
  induction s using Statement.actions.induct
    (motive_2 := fun o => (∀ a ∈ Statement.actionsOtherwise o, a.Asks (Answered rows W)) →
      W (fun _ => True) (otherwise returnsTable o))
    (motive_3 := fun ss => (∀ a ∈ Statement.actionsAll ss, a.Asks (Answered rows W)) →
      W (fun _ => True) (statements returnsTable ss))
  all_goals simp only [Statement.actions, Statement.actionsAll, Statement.actionsOtherwise,
    List.mem_append, or_imp, forall_and, List.mem_singleton, forall_eq, Walk.statement, statements,
    otherwise] at *
  case case1 a =>
    exact h.bind (h.minor .nextStatement) fun _ _ => h.action returnsTable a hs
  case case2 ih => exact ih hs
  case case3 ihy iho => exact h.bind (ihy hs.1) fun _ _ => iho hs.2
  case case4 ih => exact ih hs
  case case5 ihb ihh => exact h.bind (ihb hs.1) fun _ _ => ihh hs.2
  case case6 => exact h.done
  case case7 ihs ihr hs => exact h.bind (ihs hs.1) fun _ _ => ihr hs.2
  case case8 => exact h.done
  case case9 ih hs => exact ih hs

theorem statements (returnsTable : Bool) (ss : List Statement)
    (hs : ∀ a ∈ Statement.actionsAll ss, a.Asks (Answered rows W)) :
    W (fun _ => True) (statements returnsTable ss) := by
  induction ss with
  | nil => exact h.done
  | cons s ss ih =>
    simp only [Statement.actionsAll, List.mem_append, or_imp, forall_and] at hs
    exact h.bind (h.statement returnsTable s hs.1) fun _ _ => ih hs.2

theorem returnTable (name : String) : W (fun _ => True) (returnTable name) := by
  refine h.bind h.get fun f hf => ?_
  split
  · rename_i columns hc
    exact h.addResultSet (h.ofTable name (hf name columns hc))
  · exact h.done

/-- The walk over a routine whose actions all ask what is answered. -/
theorem routine (r : Routine) (hr : ∀ a ∈ r.actions, a.Asks (Answered rows W)) :
    W (fun _ => True) (routine r) := by
  have hb := h.statements (r.kind == .tableFunction) r.body hr
  refine h.bind (h.forM fun p _ => h.bindParameter p) fun _ _ => ?_
  cases ht : r.returnTable with
  | none => exact h.bind hb fun _ _ => h.done
  | some t =>
    exact h.bind (h.declareTable t.1 t.2) fun _ _ => h.bind hb fun _ _ => h.returnTable t.1

end Rules

/-- From findings with a property the walk comes to findings with it, if it comes to an end. -/
def Stays (I : Findings → Prop) (env : Env) ⦃α : Type⦄ (Q : α → Prop) (x : Walk α) : Prop :=
  ∀ f, I f → ∀ a f', x env f = .ok (a, f') → Q a ∧ I f'

namespace Stays

variable {I : Findings → Prop} {env : Env} {α β : Type} {Q : α → Prop}

theorem of_run {x : Walk α} (a : Findings → α) (change : Findings → Findings)
    (hx : ∀ f, x env f = .ok (a f, change f)) (h : ∀ f, I f → Q (a f) ∧ I (change f)) :
    Stays I env Q x := by
  intro f hf b f' hr
  have he : (a f, change f) = (b, f') := Except.ok.inj ((hx f).symm.trans hr)
  obtain ⟨rfl, rfl⟩ := Prod.mk.inj he
  exact h f hf

theorem bind {Q' : β → Prop} {x : Walk α} {g : α → Walk β} (hx : Stays I env Q x)
    (hg : ∀ a, Q a → Stays I env Q' (g a)) : Stays I env Q' (x >>= g) := by
  intro f hf b f' hr
  obtain ⟨a, f₁, hx', hr⟩ := run_bind_eq_ok.1 hr
  obtain ⟨hQ, hf₁⟩ := hx f hf a f₁ hx'
  exact hg a hQ f₁ hf₁ b f' hr

/-- A property that all changes of a walk keep. -/
theorem rules (env : Env)
    (hget : ∀ f, I f → ∀ name columns, f.context.bindings.table? name = some columns →
      table columns)
    (hminor : ∀ {change : Findings → Findings}, Minor change → ∀ f, I f → I (change f))
    (hbindTable : ∀ name columns, table columns → ∀ f, I f →
      I { f with
        context := { f.context with bindings := f.context.bindings.bindTable name columns } })
    (haddResultSet : ∀ set, rows set → ∀ f, I f →
      I { f with model := { f.model with resultSets := f.model.resultSets ++ [set] } })
    (hofInfos : ∀ infos, table (.ofInfos infos))
    (hofRows : ∀ set renames, rows set → table (.ofColumns set.columns renames))
    (hofTable : ∀ columns name, table columns →
      rows { columns := columns.values.map (·.project name false) }) :
    Rules table rows (Stays I env) where
  pure hQ := of_run (fun _ => _) id (fun _ => rfl) fun _ hf => ⟨hQ, hf⟩
  bind := bind
  catalog hg _ := hg env.catalog
  defaultSchema :=
    of_run (fun _ => env.config.defaultSchema) id (fun _ => rfl) fun _ hf => ⟨trivial, hf⟩
  get := of_run id id (fun _ => rfl) fun f hf => ⟨hget f hf, hf⟩
  minor {change} h := of_run (fun _ => ()) change (fun _ => rfl) fun f hf =>
    ⟨trivial, hminor h f hf⟩
  bindTable name columns hc :=
    of_run (fun _ => ()) _ (fun _ => rfl) fun f hf => ⟨trivial, hbindTable name columns hc f hf⟩
  addResultSet {set} hs := of_run (fun _ => ()) _ (fun _ => rfl) fun f hf =>
    ⟨trivial, haddResultSet set hs f hf⟩
  ofInfos := hofInfos
  ofRows {set} renames hs := hofRows set renames hs
  ofTable {columns} name hc := hofTable columns name hc

theorem pure {a : α} (h : Q a) : Stays I env Q (Pure.pure a) :=
  of_run (fun _ => a) id (fun _ => rfl) fun _ hf => ⟨h, hf⟩

theorem modify {change : Findings → Findings} (h : ∀ f, I f → I (change f)) :
    Stays I env (fun _ => True) (modify change) :=
  of_run (fun _ => ()) change (fun _ => rfl) fun f hf => ⟨trivial, h f hf⟩

theorem get {g : Findings → Walk α} (hg : ∀ f, I f → Stays I env Q (g f)) :
    Stays I env Q (MonadState.get >>= g) :=
  fun f hf => hg f hf f hf

theorem catalog {g : Catalog → Walk α} (hg : Stays I env Q (g env.catalog)) :
    Stays I env Q (Walk.catalog >>= g) :=
  fun f hf => hg f hf

theorem defaultSchema {g : String → Walk α} (hg : Stays I env Q (g env.config.defaultSchema)) :
    Stays I env Q (Walk.defaultSchema >>= g) := fun f hf => hg f hf

theorem forM {γ : Type} {cs : List γ} {g : γ → Walk PUnit}
    (hg : ∀ c ∈ cs, Stays I env (fun _ => True) (g c)) :
    Stays I env (fun _ => True) (cs.forM g) := by
  induction cs with
  | nil => exact pure trivial
  | cons c cs ih =>
    simp only [List.forM_eq_forM, List.forM_cons] at ih ⊢
    exact bind (hg c List.mem_cons_self) fun _ _ => ih fun b hb => hg b (List.mem_cons_of_mem _ hb)

/-- An answer keeps the property if the analysis keeps it in the context. -/
theorem ask {x : Nested → Analysis α}
    (h : ∀ f, I f → ∀ a c,
      (x (f.context.depthWithin env.config.maxNestingDepth).nested).outcome env f.context =
        (.ok a, c) →
        Q a ∧ I { f with context := c }) :
    Stays I env Q (ask x) := by
  intro f hf a f' hr
  obtain ⟨c, ho, rfl⟩ := run_ask_eq_ok.1 hr
  exact h f hf a c ho

end Stays

end Walk

end ResultShape
