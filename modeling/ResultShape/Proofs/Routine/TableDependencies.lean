import ResultShape.Proofs.Analysis.TableColumns
import ResultShape.Proofs.Model.Mentions
import ResultShape.Proofs.Routine.Idle
/-! Tables among the dependencies: a table or view from which a routine sends a column to the client
is a dependency, under the schema and the name that it has in the routine. -/
namespace ResultShape

/-- The table or view that a name stands for, as the columns that are read from it
mention it: without a catalog. -/
def Name.tableReference (env : Env) (n : Name) : Reference :=
  ⟨(env.catalog.objectKind? n).getD .table, none,
    some (n.schema.getD env.config.defaultSchema), n.name⟩

/-- What is asked for the rows that an `OUTPUT` clause sends to the client. -/
def OutputClause.rows? (ctes : List Cte) (target : Source) (sources : List Source)
    (isMerge : Bool) :
    Option OutputClause → Option (Nested → Analysis ResultSet)
  | some clause =>
    if clause.into.isNone then some (Walk.changedRows ctes target sources isMerge clause.items)
    else none
  | none => none

/-- What is asked for the rows that a query sends to the client. -/
def Query.rows? (q : Query) : Option (Nested → Analysis ResultSet) :=
  if q.isVisible then some fun nested => nested.query q else none

/-- What is asked for the rows that an action sends to the client, if it sends any. -/
def Action.rows? (returnsTable : Bool) : Action → Option (Nested → Analysis ResultSet)
  | .select q => q.rows?
  | .insert s => OutputClause.rows? s.ctes s.target [] false s.output
  | .update s | .delete s => OutputClause.rows? s.ctes s.target s.sources false s.output
  | .merge s => OutputClause.rows? s.ctes s.target [s.source] true s.output
  | .return (some (.subquery q)) => if returnsTable then q.rows? else none
  | _ => none

/-- The rows that were asked for at the start of a statement are a result set of the model. -/
def RoutineModel.Sends (env : Env) (m : RoutineModel) (rows : Nested → Analysis ResultSet) : Prop :=
  ∃ c set c', c.Idle c.statement ∧
    (rows (Nested.within env.config.maxNestingDepth)).outcome env c = (.ok set, c') ∧
    set ∈ m.resultSets

/-- When a change registers its sources and its target in a context, the entry at a position is that
of a leaf of the sources which names a table or view. A `MERGE` registers its target first. -/
inductive Walk.SourceAt (env : Env) (k : Nat) (target : Source) (sources : List Source) (n : Name)
    (c : Context) :
    Bool → Context → Nat → Prop where
  | change {c₁ c₂ : Context} {j : Nat} {aliasName : Option String}
    (hs : (sources.forM fun s => discard (s.register (Nested.within k))).outcome env c =
      (.ok (), c₁))
    (ht : (target.registerTarget (Nested.within k) false).outcome env c₁ = (.ok (), c₂))
    (hl : ((sources.flatMap (·.leaves false)).map (·.source))[j]? = some (.named n aliasName))
    (hlocal : n.isLocal = false) (hcte : c.cteNamed? n = none) :
    SourceAt env k target sources n c false c₂ (c.scopes.entries.length + j)
  | merge {c₁ c₂ : Context} {j : Nat} {aliasName : Option String}
    (ht : (target.registerTarget (Nested.within k) true).outcome env c = (.ok (), c₁))
    (hs : (sources.forM fun s => discard (s.register (Nested.within k))).outcome env c₁ =
      (.ok (), c₂))
    (hl : ((sources.flatMap (·.leaves false)).map (·.source))[j]? = some (.named n aliasName))
    (hlocal : n.isLocal = false) (hcte : c₁.cteNamed? n = none) :
    SourceAt env k target sources n c true c₂ (c₁.scopes.entries.length + j)

/-- A result set of the model has a column that is read from the table or view of a name: a column
of a query, or one of the items of an `OUTPUT` clause. -/
inductive RoutineModel.ReadsTable (env : Env) (m : RoutineModel) (n : Name) : Prop where
  | query {k i : Nat} {q : Query} {c c' : Context} {set : ResultSet}
    (h : ((Nested.within (k + 1)).query q).outcome env c = (.ok set, c')) (hm : set ∈ m.resultSets)
    (hr : ResultShape.ReadsTable env n k q.body (c.inside q) i)
  | output {k i position : Nat} {ctes : List Cte} {target : Source} {sources : List Source}
    {isMerge : Bool} {items : List Item} {key : String} {c c₁ c' : Context} {set : ResultSet}
    (h : (Walk.changedRows ctes target sources isMerge items (Nested.within k)).outcome env c =
      (.ok set, c'))
    (hm : set ∈ m.resultSets)
    (hs : Walk.SourceAt env k target sources n (c.pushScope.pushCtes ctes) isMerge c₁ position)
    (ho : (items.flatMap (·.origins (c₁.scopes.load env.catalog)))[i]? =
      some (some ⟨position, key⟩))

namespace Walk

variable {env : Env} {f f' : Findings} {returnsTable : Bool} {rows : Nested → Analysis ResultSet}

/-- A walk loses no result set. -/
private theorem rules_subset (env : Env) (sets : List ResultSet) :
    Rules (fun _ => True) (fun _ => True) (Stays (fun f => sets ⊆ f.model.resultSets) env) := by
  refine Stays.rules env (fun _ _ _ _ _ => trivial) (fun h f hf => ?_) (fun _ _ _ _ hf => hf)
    (fun set _ f hf => List.subset_append_of_subset_left _ hf) (fun _ => trivial)
    (fun _ _ _ => trivial)
    fun _ _ _ => trivial
  cases h with
  | model change hsets => exact hsets f.model ▸ hf
  | _ => exact hf

private theorem answered_subset (env : Env) (sets : List ResultSet) (a : Action) :
    a.Asks (Answered (fun _ => True) (Stays (fun f => sets ⊆ f.model.resultSets) env)) := by
  refine a.asks_of_forall (fun e => ?_) (fun q => ?_) fun ctes target sources isMerge items => ?_
  all_goals exact .ask fun f hf _ _ _ => ⟨trivial, hf⟩

private theorem subset_of_statement {s : Statement}
    (h : statement returnsTable s env f = .ok ((), f')) :
    f.model.resultSets ⊆ f'.model.resultSets :=
  ((rules_subset env _).statement returnsTable s (fun a _ => answered_subset env _ a) f
    (List.Subset.refl _) () f' h).2

private theorem subset_of_statements {ss : List Statement}
    (h : statements returnsTable ss env f = .ok ((), f')) :
    f.model.resultSets ⊆ f'.model.resultSets :=
  ((rules_subset env _).statements returnsTable ss (fun a _ => answered_subset env _ a) f
    (List.Subset.refl _) () f' h).2

private theorem subset_of_otherwise {o : Option Statement}
    (h : otherwise returnsTable o env f = .ok ((), f')) :
    f.model.resultSets ⊆ f'.model.resultSets := by
  cases o with
  | none =>
    cases h
    exact List.Subset.refl _
  | some s => exact subset_of_statement h

private theorem sends_of_ask (hf : f.context.Idle f.context.statement)
    (h : (do addResultSet (← ask rows)) env f = .ok ((), f')) : f'.model.Sends env rows := by
  obtain ⟨set, f₁, hset, h⟩ := run_bind_eq_ok.1 h
  cases h
  obtain ⟨c, hc, rfl⟩ := run_ask_eq_ok.1 hset
  have hlimit :
      f.context.depthWithin env.config.maxNestingDepth = ⟨env.config.maxNestingDepth, 0⟩ :=
    congrArg (Depth.mk _) hf.depth
  rw [hlimit] at hc
  exact ⟨f.context, set, c, hf, hc, List.mem_append_right _ (List.mem_singleton_self set)⟩

private theorem sends_of_selectQuery {q : Query} (hf : f.context.Idle f.context.statement)
    (hr : q.rows? = some rows) (h : selectQuery q env f = .ok ((), f')) :
    f'.model.Sends env rows := by
  unfold Query.rows? at hr
  split at hr
  · rename_i hv
    cases hr
    refine sends_of_ask hf ?_
    unfold selectQuery at h
    obtain ⟨set, f₁, hset, h⟩ := run_bind_eq_ok.1 h
    have hinto : q.firstSelect.into = none := by
      rw [Query.isVisible, Bool.and_eq_true] at hv
      exact Option.isNone_iff_eq_none.1 hv.1
    rw [hinto] at h
    simp only [hv, if_true] at h
    exact run_bind_eq_ok.2 ⟨set, f₁, hset, h⟩
  · cases hr

private theorem sends_of_output {ctes : List Cte} {target : Source} {sources : List Source}
    {isMerge : Bool} {o : Option OutputClause} (hf : f.context.Idle f.context.statement)
    (hr : OutputClause.rows? ctes target sources isMerge o = some rows)
    (h : output ctes target sources isMerge o env f = .ok ((), f')) : f'.model.Sends env rows := by
  cases o with
  | none => cases hr
  | some clause =>
    simp only [OutputClause.rows?] at hr
    split at hr
    · rename_i hv
      cases hr
      refine sends_of_ask hf ?_
      simp only [output, Option.isNone_iff_eq_none.1 hv, Option.isSome_none, Bool.false_eq_true,
        if_false] at h
      exact h
    · cases hr

private theorem sends_of_action {a : Action} (hf : f.context.Idle f.context.statement)
    (hr : a.rows? returnsTable = some rows) (h : action returnsTable a env f = .ok ((), f')) :
    f'.model.Sends env rows := by
  unfold Action.rows? at hr
  split at hr
  · exact sends_of_selectQuery hf hr h
  · rename_i s
    obtain ⟨ctes, target, columns, source, clause⟩ := s
    cases source with
    | execute call =>
      -- A procedure whose rows are inserted leaves the context as it is.
      obtain ⟨_, f₁, he, h⟩ := run_bind_eq_ok.1 h
      obtain ⟨_, _, hschema, he⟩ := run_bind_eq_ok.1 he
      cases hschema
      cases he
      refine sends_of_output ?_ hr h
      exact hf
    | _ => exact sends_of_output hf hr h
  · exact sends_of_output hf hr h
  · exact sends_of_output hf hr h
  · exact sends_of_output hf hr h
  · split at hr
    · rename_i hreturns
      cases hreturns
      exact sends_of_selectQuery hf hr h
    · cases hr
  · cases hr

private theorem sends_mono {m m' : RoutineModel} (hm : m.resultSets ⊆ m'.resultSets)
    (h : m.Sends env rows) :
    m'.Sends env rows := by
  obtain ⟨c, set, c', hc, ho, hs⟩ := h
  exact ⟨c, set, c', hc, ho, hm hs⟩

private theorem sends_of_statement {s : Statement} (hf : f.Idle)
    (h : statement returnsTable s env f = .ok ((), f'))
    {a : Action} (ha : a ∈ s.actions) (hr : a.rows? returnsTable = some rows) :
    f'.model.Sends env rows := by
  induction s using Statement.actions.induct
    (motive_2 := fun o => ∀ {f f' : Findings}, f.Idle →
      otherwise returnsTable o env f = .ok ((), f') →
      a ∈ Statement.actionsOtherwise o → f'.model.Sends env rows)
    (motive_3 := fun ss => ∀ {f f' : Findings}, f.Idle →
      statements returnsTable ss env f = .ok ((), f') →
      a ∈ Statement.actionsAll ss → f'.model.Sends env rows) generalizing f f'
  all_goals simp only [Statement.actions, Statement.actionsAll, Statement.actionsOtherwise,
    List.mem_append, List.mem_singleton, List.not_mem_nil] at *
  case case1 b =>
    subst ha
    obtain ⟨_, f₁, hn, h⟩ := run_bind_eq_ok.1 h
    cases hn
    exact sends_of_action (Context.Idle.nextStatement hf) hr h
  case case2 ih => exact ih hf h ha
  case case3 ihy iho =>
    obtain ⟨_, f₁, hy, ho⟩ := run_bind_eq_ok.1 h
    rcases ha with ha | ha
    · exact sends_mono (subset_of_otherwise ho) (ihy hf hy ha)
    · exact iho (hf.statement hy) ho ha
  case case4 ih => exact ih hf h ha
  case case5 ihb ihh =>
    obtain ⟨_, f₁, hb, hh⟩ := run_bind_eq_ok.1 h
    rcases ha with ha | ha
    · exact sends_mono (subset_of_statements hh) (ihb hf hb ha)
    · exact ihh (hf.statements hb) hh ha
  case case7 ihs ihr f f' hf h ha =>
    obtain ⟨_, f₁, hs, hr⟩ := run_bind_eq_ok.1 h
    rcases ha with ha | ha
    · exact sends_mono (subset_of_statements hr) (ihs hf hs ha)
    · exact ihr (hf.statement hs) hr ha
  case case9 ih f f' hf h ha => exact ih hf h ha

private theorem sends_of_statements {ss : List Statement} (hf : f.Idle)
    (h : statements returnsTable ss env f = .ok ((), f')) {a : Action}
    (ha : a ∈ Statement.actionsAll ss)
    (hr : a.rows? returnsTable = some rows) : f'.model.Sends env rows :=
  sends_of_statement (s := .block ss) hf h ha hr

/-- Whatever an action of the routine sends to the client is a result set of what the walk finds. -/
theorem sends_of_routine {r : Routine} (h : routine r env {} = .ok ((), f)) {a : Action}
    (ha : a ∈ r.actions)
    (hr : a.rows? (r.kind == .tableFunction) = some rows) : f.model.Sends env rows := by
  obtain ⟨_, f₁, hp, h⟩ := run_bind_eq_ok.1 h
  have hf₁ := Findings.Idle.start.bindParameters hp
  cases ht : r.returnTable with
  | none =>
    simp only [ht] at h
    obtain ⟨_, f₂, hb, h⟩ := run_bind_eq_ok.1 h
    cases h
    exact sends_of_statements hf₁ hb ha hr
  | some t =>
    simp only [ht] at h
    obtain ⟨_, f₂, hd, h⟩ := run_bind_eq_ok.1 h
    obtain ⟨_, f₃, hb, h⟩ := run_bind_eq_ok.1 h
    have hsubset :=
      ((rules_subset env f₃.model.resultSets).returnTable t.1 f₃ (List.Subset.refl _) () f h).2
    exact sends_mono hsubset (sends_of_statements (hf₁.declareTable hd) hb ha hr)

end Walk

variable {env : Env} {n : Name}

private theorem Walk.SourceAt.exists_ofTable {k position : Nat} {target : Source}
    {sources : List Source}
    {isMerge : Bool} {c c₁ : Context} (h : SourceAt env k target sources n c isMerge c₁ position) :
    (registerChange (Nested.within k) target sources isMerge).outcome env c = (.ok (), c₁) ∧
      ∃ e, c₁.scopes.entries[position]? = some e ∧ e.OfTable env n := by
  cases h with
  | change hs ht hl hlocal hcte =>
    obtain ⟨e, he, htable⟩ := Analysis.ShowsTables.registerAll sources hs _ n _ hl hlocal hcte
    exact ⟨Analysis.outcome_bind_eq_ok.2 ⟨(), _, hs, ht⟩,
      Analysis.ShowsTables.kept_registerTarget ht he htable⟩
  | merge ht hs hl hlocal hcte =>
    exact ⟨Analysis.outcome_bind_eq_ok.2 ⟨(), _, ht, hs⟩,
      Analysis.ShowsTables.registerAll sources hs _ n _ hl hlocal hcte⟩

private theorem RoutineModel.ReadsTable.exists_showsTable {m : RoutineModel}
    (h : m.ReadsTable env n) :
    ∃ set ∈ m.resultSets, ∃ column ∈ set.columns, column.ShowsTable env n := by
  cases h with
  | query h hm hr =>
    obtain ⟨column, hi, hshows⟩ := showsTable_of_query h fun p c₁ hp => hr.showsTable hp
    exact ⟨_, hm, column, List.mem_of_getElem? hi, hshows⟩
  | output h hm hs ho =>
    obtain ⟨c₂, h, -⟩ := Analysis.outcome_between_eq_ok.1 h
    obtain ⟨c₃, h, -⟩ := Analysis.outcome_between_eq_ok.1 h
    obtain ⟨_, c₄, hregister, h⟩ := Analysis.outcome_bind_eq_ok.1 h
    obtain ⟨hregister', e, he, htable⟩ := hs.exists_ofTable
    obtain ⟨-, rfl⟩ := Prod.mk.inj (hregister.symm.trans hregister')
    obtain ⟨rows, c₅, hrows, h⟩ := Analysis.outcome_bind_eq_ok.1 h
    obtain ⟨_, _, hget, h⟩ := Analysis.outcome_bind_eq_ok.1 h
    cases h
    obtain ⟨p, c₆, hp, hrows⟩ := Analysis.outcome_bind_eq_ok.1 hrows
    cases hrows
    obtain ⟨column, hi, hreads⟩ := Analysis.exists_reads_of_projectAll ho he hp
    have hshows : column.ShowsTable env n := ⟨column, .self, htable.source_of_reads hreads⟩
    obtain ⟨named, hnamed, hshows⟩ := hshows.assignNames hi
    exact ⟨_, hm, named, List.mem_of_getElem? hnamed, hshows⟩

/-- A table or view that a column is read from is among the dependencies. -/
private theorem RoutineModel.ReadsTable.exists_dependency {m : RoutineModel}
    (h : m.ReadsTable env n) :
    ∃ d ∈ m.dependencies, d.identity = (n.tableReference env).identity := by
  obtain ⟨set, hset, column, hcolumn, d, hd, name, hsource⟩ := h.exists_showsTable
  have hmentions : n.tableReference env ∈ d.ownMentions := by
    rw [ResultColumn.ownMentions, hsource]
    simp [ColumnSource.object?, Name.tableSource, Name.tableReference]
  exact m.exists_dependency ⟨set, hset, column, hcolumn, hd⟩ hmentions

namespace Routine

/-- What a routine sends to the client stands in its model. Every table or view that a column of it
is read from has a dependency under its own schema and name. Two of them share one exactly if they
have the same kind, schema and name: the catalogs, which are not kept, make no difference. -/
theorem tables_are_dependencies {catalog : Catalog} {config : Config} {r : Routine}
    {m : RoutineModel} (h : r.model catalog config = .ok m) :
    let env : Env := ⟨catalog.withDefaultSchema config.defaultSchema, config⟩
    (∀ a ∈ r.actions, ∀ rows, a.rows? (r.kind == .tableFunction) = some rows → m.Sends env rows) ∧
      ∀ n₁ n₂, m.ReadsTable env n₁ → m.ReadsTable env n₂ →
        ∃ d₁ ∈ m.dependencies, ∃ d₂ ∈ m.dependencies,
          d₁.identity = (n₁.tableReference env).identity ∧
          d₂.identity = (n₂.tableReference env).identity ∧
          (d₁ = d₂ ↔ (n₁.tableReference env).identity = (n₂.tableReference env).identity) := by
  intro env
  cases hw : Walk.routine r env {} with
  | error e =>
    rw [model, hw] at h
    cases h
  | ok p =>
    rw [model, hw] at h
    cases h
    refine ⟨fun a ha rows hr => Walk.sends_of_routine hw ha hr, fun n₁ n₂ h₁ h₂ => ?_⟩
    obtain ⟨d₁, hd₁, he₁⟩ := h₁.exists_dependency
    obtain ⟨d₂, hd₂, he₂⟩ := h₂.exists_dependency
    refine ⟨d₁, hd₁, d₂, hd₂, he₁, he₂, ?_⟩
    rw [← he₁, ← he₂]
    exact ⟨congrArg _, RoutineModel.eq_of_identity_eq hd₁ hd₂⟩

end Routine

/-- `qualifier.name` as an item. -/
private def qualified (qualifier name : String) : Item :=
  .expr (.column ⟨none, some qualifier, name⟩) none

/-- A query of one block, with its `WITH` clause. -/
private def selecting (items : List Item) (sources : List Source) (ctes : List Cte) : Query :=
  ⟨.select ⟨false, none, items, none, sources, none, [], none⟩, ctes, [], none, none⟩

private def queryOnly (q : Query) : Routine :=
  ⟨.procedure, .bare "p", [], [.action (.select q)], none, none⟩

private def bare : Env := ⟨(Catalog.builtinOnly {}).withDefaultSchema "dbo", {}⟩

/-- `SELECT t.x FROM dbo.T t`. -/
private def firstTable : Query :=
  selecting [qualified "t" "x"] [.named ⟨none, some "dbo", "T"⟩ (some "t")] []

/-- `WITH d AS (SELECT t.x FROM dbo.T t) SELECT d.x, s.y FROM d, sales.T s`. -/
private def bothTables : Query :=
  selecting [qualified "d" "x", qualified "s" "y"]
    [.named (.bare "d") none, .named ⟨none, some "sales", "T"⟩ (some "s")] [⟨"d", [], firstTable⟩]

private def ran (k : Nat) (q : Query) (c : Context) : Except AnalysisError ResultSet × Context :=
  ((Nested.within k).query q).outcome bare c

private def columnsOf (k : Nat) (q : Query) (c : Context) : List ResultColumn :=
  ((ran k q c).1.toOption.getD default).columns

/-- What the sources of the first block of a query come to in the scope of that block. -/
private def sourcesRan (k : Nat) (q : Query) (c : Context) : Except AnalysisError Unit × Context :=
  (q.firstSelect.sources.forM fun t => discard (t.register (Nested.within k))).outcome bare
    (c.inside q).pushScope

private theorem reads_firstTable (k : Nat) :
    ReadsTable bare ⟨none, some "dbo", "T"⟩ k firstTable.body
      (({} : Context).inside firstTable) 0 := by
  have hs : sourcesRan k firstTable {} = (.ok (), (sourcesRan k firstTable {}).2) := by rfl
  have ho :
      (firstTable.firstSelect.origins
        ((sourcesRan k firstTable {}).2.scopes.load bare.catalog))[0]? =
      some (some ⟨0, "x"⟩) := by rfl
  exact .own hs ho rfl rfl rfl

private theorem reads_bothTables_second (k : Nat) :
    ReadsTable bare ⟨none, some "sales", "T"⟩ (k + 1) bothTables.body
      (({} : Context).inside bothTables) 1 := by
  have hs : sourcesRan (k + 1) bothTables {} = (.ok (), (sourcesRan (k + 1) bothTables {}).2) := by
    rfl
  have ho :
      (bothTables.firstSelect.origins
        ((sourcesRan (k + 1) bothTables {}).2.scopes.load bare.catalog))[1]? =
      some (some ⟨1, "y"⟩) := by rfl
  exact .own hs ho rfl rfl rfl

private theorem reads_bothTables_first (k : Nat) :
    ReadsTable bare ⟨none, some "dbo", "T"⟩ (k + 1) bothTables.body
      (({} : Context).inside bothTables) 0 := by
  have hs : sourcesRan (k + 1) bothTables {} = (.ok (), (sourcesRan (k + 1) bothTables {}).2) := by
    rfl
  have ho :
      (bothTables.firstSelect.origins
        ((sourcesRan (k + 1) bothTables {}).2.scopes.load bare.catalog))[0]? =
      some (some ⟨0, "x"⟩) := by rfl
  have he : (sourcesRan (k + 1) bothTables {}).2.scopes.entries[0]? =
      some { Entry.resolved "d" none (some (.ofColumns (columnsOf (k + 1) firstTable {}) [])) with
        isCte := true } := by rfl
  have hk : (ColumnMap.keysOf [] (columnsOf (k + 1) firstTable {})).idxOf? "x" = some 0 := by rfl
  have hq : ran (k + 1) firstTable {} =
      (.ok ((ran (k + 1) firstTable {}).1.toOption.getD default),
        (ran (k + 1) firstTable {}).2) := by rfl
  exact .readBack hs ho he rfl hk (.query hq) (reads_firstTable k)

private def bothColumns : ResultSet where
  columns := [
    { name := "x", aliasTable := some "d",
      source := some { schema := some "dbo", table := some "T", column := some "x",
                       objectKind := some .table } },
    { name := "y", aliasTable := some "s",
      source := some { schema := some "sales", table := some "T", column := some "y",
                       objectKind := some .table } }]

/-- `SELECT a.x, b.y FROM db1.dbo.T a, db2.dbo.T b`. -/
private def twoDatabases : Query :=
  selecting [qualified "a" "x", qualified "b" "y"]
    [.named ⟨some "db1", some "dbo", "T"⟩ (some "a"),
      .named ⟨some "db2", some "dbo", "T"⟩ (some "b")] []

private def twoDatabasesColumns : ResultSet where
  columns := [
    { name := "x", aliasTable := some "a",
      source := some { schema := some "dbo", table := some "T", column := some "x",
                       objectKind := some .table } },
    { name := "y", aliasTable := some "b",
      source := some { schema := some "dbo", table := some "T", column := some "y",
                       objectKind := some .table } }]

namespace Routine

-- The CTE is evaluated inside the query that refers to it.
set_option maxRecDepth 4000 in
/-- A table that is read through a CTE, and one of the same name in another schema. -/
theorem tables_are_dependencies_two_schemas :
    ∃ m, (queryOnly bothTables).model (.builtinOnly {}) {} = .ok m ∧
      m.ReadsTable bare ⟨none, some "dbo", "T"⟩ ∧
      m.ReadsTable bare ⟨none, some "sales", "T"⟩ ∧
      ∃ d₁ ∈ m.dependencies, ∃ d₂ ∈ m.dependencies, d₁.identity = (.table, "", "dbo", "t") ∧
        d₂.identity = (.table, "", "sales", "t") ∧ d₁ ≠ d₂ := by
  have hq : ran 2 bothTables {} = (.ok bothColumns, (ran 2 bothTables {}).2) := by rfl
  have hm : (queryOnly bothTables).model (.builtinOnly {}) {} =
      .ok { resultSets := [bothColumns] } := by rfl
  have hsent : bothColumns ∈ ({ resultSets := [bothColumns] } : RoutineModel).resultSets :=
    List.mem_singleton_self _
  have h₁ := RoutineModel.ReadsTable.query hq hsent (reads_bothTables_first 0)
  have h₂ := RoutineModel.ReadsTable.query hq hsent (reads_bothTables_second 0)
  obtain ⟨d₁, hd₁, d₂, hd₂, he₁, he₂, heq⟩ := (tables_are_dependencies hm).2 _ _ h₁ h₂
  have hne : (Name.tableReference bare ⟨none, some "dbo", "T"⟩).identity ≠
      (Name.tableReference bare ⟨none, some "sales", "T"⟩).identity := by decide
  exact ⟨_, hm, h₁, h₂, d₁, hd₁, d₂, hd₂, he₁, he₂, fun hd => hne (heq.1 hd)⟩

/-- Two tables that only their databases tell apart are one dependency,
which names neither database. -/
theorem tables_of_two_databases :
    ∃ m, (queryOnly twoDatabases).model (.builtinOnly {}) {} = .ok m ∧
      m.ReadsTable bare ⟨some "db1", some "dbo", "T"⟩ ∧
      m.ReadsTable bare ⟨some "db2", some "dbo", "T"⟩ ∧
      m.dependencies = [⟨.table, none, some "dbo", "T"⟩] := by
  have hs : sourcesRan 0 twoDatabases {} = (.ok (), (sourcesRan 0 twoDatabases {}).2) := by rfl
  have horigins :
      twoDatabases.firstSelect.origins ((sourcesRan 0 twoDatabases {}).2.scopes.load bare.catalog) =
      [some ⟨0, "x"⟩, some ⟨1, "y"⟩] := by rfl
  have ho₁ := congrArg (·[0]?) horigins
  have ho₂ := congrArg (·[1]?) horigins
  have hq : ran 1 twoDatabases {} = (.ok twoDatabasesColumns, (ran 1 twoDatabases {}).2) := by rfl
  have hm : (queryOnly twoDatabases).model (.builtinOnly {}) {} =
      .ok { resultSets := [twoDatabasesColumns] } := by rfl
  have hsent :
      twoDatabasesColumns ∈ ({ resultSets := [twoDatabasesColumns] } : RoutineModel).resultSets :=
    List.mem_singleton_self _
  exact ⟨_, hm, .query hq hsent (.own hs ho₁ rfl rfl rfl),
    .query hq hsent (.own hs ho₂ rfl rfl rfl), by rfl⟩

end Routine

end ResultShape
