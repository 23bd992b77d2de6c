import ResultShape.Proofs.Routine.Rules
import ResultShape.Proofs.Used.Query
/-! Routines over used objects: a walk comes to a model that mentions only what is used if what
stands in the queries and the calls of its actions is. -/
namespace ResultShape

/-- The queries that an action asks for; a value and the rows of a change
are blocks of their own. -/
def Action.queries : Action → List Query
  | .select query => [query]
  | .insert s => s.output.toList.map fun clause => .block s.ctes [s.target] clause.items
  | .update s | .delete s =>
    s.output.toList.map fun clause => .block s.ctes (s.target :: s.sources) clause.items
  | .merge s => s.output.toList.map fun clause => .block s.ctes [s.target, s.source] clause.items
  | .declare declarations =>
    declarations.flatMap fun d => d.default.toList.map fun e => .block [] [] [.expr e none]
  | .set _ value => [.block [] [] [.expr value none]]
  | .return (some (.subquery query)) => [query]
  | _ => []

/-- The calls of procedures that an action makes. -/
def Action.executes : Action → List Execute
  | .insert ⟨_, _, _, .execute call, _⟩ => [call]
  | .execute call => [call]
  | _ => []

/-- What stands in the queries of an action is used, and so are the procedures that it executes. -/
structure Action.UsesOnly (used : Reference → Prop) (env : Env) (a : Action) : Prop where
  queries : ∀ q ∈ a.queries, q.Everywhere (Body.UsesOnly used env) []
  executes : ∀ call ∈ a.executes,
    used ⟨.procedure, call.procedure.catalog,
      some (call.procedure.schema.getD env.config.defaultSchema), call.procedure.name⟩

/-- The table types that type names come to are used. -/
def Env.TableTypesUsed (used : Reference → Prop) (env : Env) : Prop :=
  ∀ n : Name, (env.catalog.tableTypeColumns? n).isSome →
    used (.ofName .tableType (n.inSchema env.config.defaultSchema))

/-- What a walk has found mentions only what is used, and so does the
context that it goes on with. -/
structure Findings.MentionsOnly (used : Reference → Prop) (f : Findings) : Prop where
  context : f.context.MentionsOnly used []
  resultSets : ∀ set ∈ f.model.resultSets, set.MentionsOnly used
  executedRoutines : ∀ e ∈ f.model.executedRoutines, used e.reference
  parameterTypes : ∀ r ∈ f.model.parameterTypes, used r

/-- From findings that mention only what is used a walk comes to such ones, and
to a value with the property. -/
abbrev Walk.MentionsOnly (used : Reference → Prop) (env : Env) {α : Type} (Q : α → Prop)
    (x : Walk α) : Prop :=
  Walk.Stays (Findings.MentionsOnly used) env Q x

variable {used : Reference → Prop} {env : Env}

theorem Findings.MentionsOnly.start : Findings.MentionsOnly used {} :=
  ⟨.start, List.forall_mem_nil _, List.forall_mem_nil _, List.forall_mem_nil _⟩

theorem Findings.MentionsOnly.mentions {f : Findings} (h : f.MentionsOnly used) :
    ∀ r ∈ f.model.mentions, used r := by
  simp only [RoutineModel.mentions, List.mem_append, List.mem_flatMap, List.mem_map]
  rintro r ((⟨set, hset, hr | hr⟩ | ⟨e, he, rfl⟩) | hr)
  · exact (h.resultSets set hset).reference r (Option.mem_toList.1 hr)
  · exact ResultColumn.mentionsOfAll_iff.2 (h.resultSets set hset).columns r hr
  · exact h.executedRoutines e he
  · exact h.parameterTypes r hr

namespace Walk.MentionsOnly

variable {α : Type} {Q : α → Prop}

private theorem ask {x : Nested → Analysis α}
    (hx : ∀ k, Analysis.MentionsOnly used [] env Q (x (Nested.within k))) :
    MentionsOnly used env Q (Walk.ask x) := by
  refine Stays.ask fun f hf a c ho => ?_
  obtain ⟨ha, hc⟩ := hx _ f.context hf.context a c ho
  exact ⟨ha, hc, hf.resultSets, hf.executedRoutines, hf.parameterTypes⟩

private theorem bindScalar (name : String) {facts : TypeFacts} (h : facts.MentionsOnly used) :
    MentionsOnly used env (fun _ => True) (bindings (·.bindScalar name facts)) :=
  .modify fun _ hf =>
    ⟨hf.context.bindScalar name h, hf.resultSets, hf.executedRoutines, hf.parameterTypes⟩

private theorem bindTable (name : String) {columns : ColumnMap} (h : columns.MentionsOnly used) :
    MentionsOnly used env (fun _ => True) (bindings (·.bindTable name columns)) :=
  .modify fun _ hf =>
    ⟨hf.context.bindTable name h, hf.resultSets, hf.executedRoutines, hf.parameterTypes⟩

private theorem addResultSet {set : ResultSet} (h : set.MentionsOnly used) :
    MentionsOnly used env (fun _ => True) (addResultSet set) :=
  .modify fun _ hf =>
    ⟨hf.context, List.forall_mem_append.2 ⟨hf.resultSets, List.forall_mem_singleton.2 h⟩,
      hf.executedRoutines, hf.parameterTypes⟩

private theorem useType {reference : Reference} (h : used reference) :
    MentionsOnly used env (fun _ => True) (useType reference) := by
  refine .modify fun f hf => ?_
  split
  · exact hf
  · exact ⟨hf.context, hf.resultSets, hf.executedRoutines,
      List.forall_mem_append.2 ⟨hf.parameterTypes, List.forall_mem_singleton.2 h⟩⟩

private theorem useUserType {facts : TypeFacts} (h : facts.MentionsOnly used) :
    MentionsOnly used env (fun _ => True) (useUserType facts) := by
  unfold Walk.useUserType
  split
  · rename_i u hu
    exact useType (h u hu)
  · exact .pure trivial

private theorem bindTableOfType (ht : env.catalog.TypesUsed used)
    (htables : env.TableTypesUsed used) (name : String)
    {type : Name} {records : List ColumnRecord}
    (h : env.catalog.tableTypeColumns? type = some records) :
    MentionsOnly used env (fun _ => True) (bindTableOfType name type records) := by
  have hcolumns :
      ColumnMap.MentionsOnly used (.ofRecords env.catalog { table := some name } records) :=
    .ofRecords ht (by rintro _ ⟨⟩) records
  exact .catalog (Stays.bind (bindTable name hcolumns) fun _ _ =>
    .defaultSchema (useType (htables type (by rw [h]; rfl))))

private theorem bindParameter (ht : env.catalog.TypesUsed used) (htables : env.TableTypesUsed used)
    (p : Parameter) :
    MentionsOnly used env (fun _ => True) (bindParameter p) := by
  refine .catalog ?_
  split
  · rename_i records hrecords
    exact bindTableOfType ht htables p.name hrecords
  · exact .catalog (Stays.bind (useUserType (ht p.type)) fun _ _ => bindScalar p.name (ht p.type))

/-- A value as the one item of a block. -/
private theorem resolve (ht : env.catalog.TypesUsed used) {e : Expr}
    (he : (Query.block [] [] [.expr e none]).Everywhere (Body.UsesOnly used env) []) (k : Nat) :
    Analysis.GivesUsed used [] env (e.resolve (Nested.within k)) := by
  have hnested := Nested.ResolvesUsed.within ht k FramesUsed.nil
  have hmem : ∀ {β : Type} {b : β} (f : Item → List β), b ∈ f (.expr e none) →
      b ∈ [Item.expr e none].flatMap f :=
    fun f hb => List.mem_flatMap.2 ⟨_, List.mem_singleton_self _, hb⟩
  refine .resolve ht e (fun q hq => ?_) fun n hn => he.body.functions n ?_
  · exact hnested.query _ q (List.Subset.refl _)
      (he.of_mem_body (List.mem_append_right _ (hmem Item.queries hq)))
  · exact List.mem_append_right _ (hmem Item.calls hn)

private theorem typeOf (ht : env.catalog.TypesUsed used) {e : Expr}
    (he : (Query.block [] [] [.expr e none]).Everywhere (Body.UsesOnly used env) []) :
    MentionsOnly used env (fun o => ∀ facts, o = some facts → facts.MentionsOnly used)
      (typeOf e) := by
  refine (ask (resolve ht he)).bind fun column hc => .pure fun facts hfacts => ?_
  obtain ⟨sqlType, -, rfl⟩ := Option.map_eq_some_iff.1 hfacts
  exact hc.userType

private theorem bindUntyped (ht : env.catalog.TypesUsed used) (d : VariableDeclaration)
    {o : Option TypeFacts} (ho : ∀ facts, o = some facts → facts.MentionsOnly used) :
    MentionsOnly used env (fun _ => True) (bindUntyped d o) := by
  cases o with
  | some facts => exact bindScalar d.name (ho facts rfl)
  | none =>
    refine Stays.bind (.modify fun f hf => ?_) fun _ _ => .catalog (bindScalar d.name (ht d.type))
    exact ⟨hf.context, hf.resultSets, hf.executedRoutines, hf.parameterTypes⟩

private theorem declareVariable (ht : env.catalog.TypesUsed used)
    (htables : env.TableTypesUsed used) (d : VariableDeclaration)
    (hd : ∀ e, d.default = some e →
      (Query.block [] [] [.expr e none]).Everywhere (Body.UsesOnly used env) []) :
    MentionsOnly used env (fun _ => True) (declareVariable d) := by
  refine .catalog ?_
  split
  · rename_i records hrecords
    exact bindTableOfType ht htables d.name hrecords
  · refine .catalog ?_
    split
    · rename_i facts hfacts
      have htype := ht d.type
      unfold Catalog.resolveType at htype
      rw [hfacts] at htype
      exact Stays.bind (useUserType htype) fun _ _ => bindScalar d.name htype
    · split
      · rename_i e he
        exact (typeOf ht (hd e he)).bind fun _ ho => bindUntyped ht d ho
      · exact bindUntyped ht d unmentioned

private theorem setVariable (ht : env.catalog.TypesUsed used) (name : String) {value : Expr}
    (hv : (Query.block [] [] [.expr value none]).Everywhere (Body.UsesOnly used env) []) :
    MentionsOnly used env (fun _ => True) (setVariable name value) := by
  refine .get fun f _ => ?_
  split
  · exact .pure trivial
  · refine (typeOf ht hv).bind fun o ho => ?_
    cases o with
    | none => exact .pure trivial
    | some facts =>
      refine Stays.bind (bindScalar name (ho facts rfl)) fun _ _ => .modify fun f hf => ?_
      exact ⟨hf.context, hf.resultSets, hf.executedRoutines, hf.parameterTypes⟩

private theorem declareTable (ht : env.catalog.TypesUsed used) (name : String)
    (columns : List ColumnDefinition) :
    MentionsOnly used env (fun _ => True) (declareTable name columns) :=
  .catalog (bindTable name (.ofDefinitions ht name columns))

private theorem execute {call : Execute} (h : used ⟨.procedure, call.procedure.catalog,
    some (call.procedure.schema.getD env.config.defaultSchema), call.procedure.name⟩) :
    MentionsOnly used env (fun _ => True) (execute call) :=
  .defaultSchema (.modify fun _ hf => ⟨hf.context, hf.resultSets,
    List.forall_mem_append.2 ⟨hf.executedRoutines, List.forall_mem_singleton.2 h⟩,
    hf.parameterTypes⟩)

private theorem selectQuery (ht : env.catalog.TypesUsed used) {q : Query}
    (hq : q.Everywhere (Body.UsesOnly used env) []) : MentionsOnly used env (fun _ => True)
    (selectQuery q) := by
  have hset (k : Nat) :
      Analysis.MentionsOnly used [] env (ResultSet.MentionsOnly used) ((Nested.within k).query q) :=
    (Nested.ResolvesUsed.within ht k .nil).query [] q (List.Subset.refl _) hq
  refine Stays.bind (ask hset) fun set hs => ?_
  split
  · exact bindTable _ (.ofColumns hs.columns _)
  · split
    · exact addResultSet hs
    · exact .pure trivial

private theorem output (ht : env.catalog.TypesUsed used) (ctes : List Cte) (target : Source)
    (sources : List Source) (isMerge : Bool) {o : Option OutputClause}
    (ho : ∀ q ∈ o.toList.map fun clause => Query.block ctes (target :: sources) clause.items,
      q.Everywhere (Body.UsesOnly used env) []) :
    MentionsOnly used env (fun _ => True) (output ctes target sources isMerge o) := by
  cases o with
  | none => exact .pure trivial
  | some clause =>
    unfold Walk.output
    dsimp only
    split
    · exact .pure trivial
    · have hrows := List.forall_mem_singleton.1 ho
      exact Stays.bind
        (ask fun k => .changedRows ht k ctes target sources isMerge clause.items hrows) fun _ hs =>
        addResultSet hs

/-- An action leaves findings that mention only what is used if it uses nothing else. -/
private theorem action (ht : env.catalog.TypesUsed used) (htables : env.TableTypesUsed used)
    (returnsTable : Bool)
    (a : Action) (ha : a.UsesOnly used env) : MentionsOnly used env (fun _ => True)
    (action returnsTable a) := by
  have hqueries := ha.queries
  cases a with
  | select query => exact selectQuery ht (List.forall_mem_singleton.1 hqueries)
  | insert s =>
    have ho :
        MentionsOnly used env (fun _ => True) (Walk.output s.ctes s.target [] false s.output) :=
      output ht s.ctes s.target [] false hqueries
    have hexecutes := ha.executes
    obtain ⟨ctes, target, columns, source, clause⟩ := s
    unfold Walk.action
    dsimp only
    split
    · exact Stays.bind (execute (hexecutes _ (List.mem_singleton_self _))) fun _ _ => ho
    · exact ho
  | update s => exact output ht s.ctes s.target s.sources false hqueries
  | delete s => exact output ht s.ctes s.target s.sources false hqueries
  | merge s => exact output ht s.ctes s.target [s.source] true hqueries
  | execute call => exact execute (ha.executes call (List.mem_singleton_self _))
  | declare declarations =>
    refine .forM fun d hd => declareVariable ht htables d fun e he =>
      hqueries _ (List.mem_flatMap.2 ⟨d, hd, ?_⟩)
    rw [he]
    exact List.mem_singleton_self _
  | declareTable name columns => exact declareTable ht name columns
  | set name value => exact setVariable ht name (List.forall_mem_singleton.1 hqueries)
  | «return» value =>
    unfold Walk.action
    split <;> rename_i heq <;> cases heq
    · split
      · exact selectQuery ht (List.forall_mem_singleton.1 hqueries)
      · exact .pure trivial
    · exact .pure trivial
  | other text => exact .pure trivial

/-- Statements leave findings that mention only what is used if their actions use nothing else. -/
private theorem statement (ht : env.catalog.TypesUsed used) (htables : env.TableTypesUsed used)
    (returnsTable : Bool) (s : Statement) (hs : ∀ a ∈ s.actions, a.UsesOnly used env) :
    MentionsOnly used env (fun _ => True) (statement returnsTable s) := by
  induction s using Statement.actions.induct
    (motive_2 := fun o => (∀ a ∈ Statement.actionsOtherwise o, a.UsesOnly used env) →
      MentionsOnly used env (fun _ => True) (otherwise returnsTable o))
    (motive_3 := fun ss => (∀ a ∈ Statement.actionsAll ss, a.UsesOnly used env) →
      MentionsOnly used env (fun _ => True) (statements returnsTable ss))
  all_goals simp only [Statement.actions, Statement.actionsAll, Statement.actionsOtherwise,
    List.mem_append, or_imp, forall_and, List.mem_singleton, forall_eq, Walk.statement, statements,
    otherwise] at *
  case case1 a =>
    refine Stays.bind (.modify fun f hf => ?_) fun _ _ => action ht htables returnsTable a hs
    exact ⟨hf.context.nextStatement, hf.resultSets, hf.executedRoutines, hf.parameterTypes⟩
  case case2 ih => exact ih hs
  case case3 ihy iho => exact Stays.bind (ihy hs.1) fun _ _ => iho hs.2
  case case4 ih => exact ih hs
  case case5 ihb ihh => exact Stays.bind (ihb hs.1) fun _ _ => ihh hs.2
  case case6 => exact .pure trivial
  case case7 ihs ihr hs => exact Stays.bind (ihs hs.1) fun _ _ => ihr hs.2
  case case8 => exact .pure trivial
  case case9 ih hs => exact ih hs

private theorem returnTable (name : String) :
    MentionsOnly used env (fun _ => True) (returnTable name) := by
  refine .get fun f hf => ?_
  split
  · rename_i columns hc
    refine addResultSet ⟨unmentioned, fun c hm => ?_⟩
    obtain ⟨info, hi, rfl⟩ := List.mem_map.1 hm
    exact ((hf.context.tables.get? hc).of_mem_values hi).project _ _
  · exact .pure trivial

/-- The walk over a routine leaves findings that mention only what is used if the actions of
the routine use nothing else. -/
theorem routine (ht : env.catalog.TypesUsed used) (htables : env.TableTypesUsed used) (r : Routine)
    (hr : ∀ a ∈ r.actions, a.UsesOnly used env) : MentionsOnly used env (fun _ => True)
    (routine r) := by
  have hbody :
      MentionsOnly used env (fun _ => True) (statements (r.kind == .tableFunction) r.body) :=
    statement ht htables _ (.block r.body) hr
  refine Stays.bind (.forM fun p _ => bindParameter ht htables p) fun _ _ => ?_
  cases r.returnTable with
  | none => exact Stays.bind hbody fun _ _ => .pure trivial
  | some t =>
    exact Stays.bind (declareTable ht t.1 t.2) fun _ _ => Stays.bind hbody fun _ _ =>
      returnTable t.1

end Walk.MentionsOnly

end ResultShape
