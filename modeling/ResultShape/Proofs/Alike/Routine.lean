import ResultShape.Proofs.Alike.Query
import ResultShape.Proofs.Routine.Outcome
import ResultShape.Proofs.Routine.Rewriting
/-! Alike walks: a routine and the routine rewritten have alike models, and after each of
their actions alike findings. -/
namespace ResultShape

/-- A query stays one, and no other expression becomes one. -/
structure Rewriting.KeepsQueries (ρ : Rewriting) : Prop where
  expr : ∀ e, (ρ.expr e).query? = e.query?
  value : ∀ e, (ρ.value e).query? = e.query?

theorem Expr.query?_rewrite {ρ : Rewriting} (hv : ρ.KeepsQueries) (e : Expr) :
    (ρ.value (e.rewrite ρ)).query? = e.query?.map (Query.rewrite ρ) := by
  rw [hv.value]
  cases e <;> (rw [rewrite, hv.expr]; rfl)

namespace Likeness

variable {L : Likeness} {env : Env}

section

variable {α β γ δ : Type}

/-- How two walks end: with related values and alike findings, or in the same error. -/
inductive WalkEnds (L : Likeness) (S : α → β → Prop) :
    Except AnalysisError (α × ResultShape.Findings) →
    Except AnalysisError (β × ResultShape.Findings) → Prop where
  | ok {a : α} {b : β} {f f' : ResultShape.Findings} (h : S a b) (hf : L.Findings f f') :
    WalkEnds L S (.ok (a, f)) (.ok (b, f'))
  | error (e : AnalysisError) : WalkEnds L S (.error e) (.error e)

/-- From alike findings the walks end alike. -/
def Walks (L : Likeness) (env : Env) (S : α → β → Prop) (x : Walk α) (y : Walk β) : Prop :=
  ∀ f f', L.Findings f f' → L.WalkEnds S (x env f) (y env f')

namespace Walks

variable {S : α → β → Prop} {T : γ → δ → Prop} {x : Walk α} {y : Walk β}

theorem pure {a : α} {b : β} (h : S a b) : L.Walks env S (Pure.pure a) (Pure.pure b) :=
  fun _ _ hf => .ok h hf

theorem bind (hx : L.Walks env S x y) {g : α → Walk γ} {g' : β → Walk δ}
    (hg : ∀ a b, S a b → L.Walks env T (g a) (g' b)) : L.Walks env T (x >>= g) (y >>= g') := by
  intro f f' hf
  have hend := hx f f' hf
  change L.WalkEnds T (x env f >>= fun p => g p.1 env p.2) (y env f' >>= fun p => g' p.1 env p.2)
  generalize x env f = p at hend
  generalize y env f' = p' at hend
  cases hend with
  | ok h hf => exact hg _ _ h _ _ hf
  | error e => exact .error e

theorem forM {R : γ → δ → Prop} {g : γ → Walk PUnit} {g' : δ → Walk PUnit}
    (hg : ∀ a b, R a b → L.Walks env Any (g a) (g' b)) {as : List γ} {bs : List δ}
    (hs : List.Forall₂ R as bs) :
    L.Walks env Any (as.forM g) (bs.forM g') := by
  induction hs with
  | nil => exact pure trivial
  | cons hab _ ih =>
    simp only [List.forM_eq_forM, List.forM_cons] at ih ⊢
    exact (hg _ _ hab).bind fun _ _ _ => ih

theorem forM_map {g : γ → Walk PUnit} {g' : δ → Walk PUnit} (ρ : γ → δ) {as : List γ}
    (hg : ∀ a ∈ as, L.Walks env Any (g a) (g' (ρ a))) : L.Walks env Any (as.forM g)
    ((as.map ρ).forM g') :=
  forM (R := fun a b => L.Walks env Any (g a) (g' b)) (fun _ _ h => h) (forall₂_map_of_mem hg)

theorem catalog {g : Catalog → Walk α} {g' : Catalog → Walk β}
    (hg : L.Walks env S (g env.catalog) (g' env.catalog)) :
    L.Walks env S (Walk.catalog >>= g) (Walk.catalog >>= g') := fun f f' hf => hg f f' hf

theorem defaultSchema {g : String → Walk α} {g' : String → Walk β}
    (hg : L.Walks env S (g env.config.defaultSchema) (g' env.config.defaultSchema)) :
    L.Walks env S (Walk.defaultSchema >>= g) (Walk.defaultSchema >>= g') :=
  fun f f' hf => hg f f' hf

theorem get {g : ResultShape.Findings → Walk α} {g' : ResultShape.Findings → Walk β}
    (hg : ∀ f f', L.Findings f f' → L.Walks env S (g f) (g' f')) :
    L.Walks env S (MonadState.get >>= g) (MonadState.get >>= g') :=
  fun f f' hf => hg f f' hf f f' hf

theorem modify {change change' : ResultShape.Findings → ResultShape.Findings}
    (h : ∀ f f', L.Findings f f' → L.Findings (change f) (change' f')) :
    L.Walks env Any (modify change) (modify change') := fun f f' hf => .ok trivial (h f f' hf)

/-- A question is answered alike if it is at every depth. -/
theorem ask {x : ResultShape.Nested → Analysis α} {y : ResultShape.Nested → Analysis β}
    (h : ∀ k, L.Agree env S (x (.within k)) (y (.within k))) : L.Walks env S (Walk.ask x)
    (Walk.ask y) := by
  intro f f' hf
  have hend := h (env.config.maxNestingDepth - f.context.depth) _ _ hf.context
  have hdepth : f'.context.depth = f.context.depth := hf.context.depth.symm
  rw [Walk.run_ask, Walk.run_ask, ResultShape.Context.depthWithin,
    ResultShape.Context.depthWithin, Depth.nested, Depth.nested, hdepth]
  dsimp only
  generalize (x _).outcome env f.context = p at hend
  generalize (y _).outcome env f'.context = p' at hend
  cases hend with
  | ok h hc => exact .ok h ⟨hc, hf.model, hf.untyped⟩
  | error e => exact .error e

end Walks

end

namespace Findings

variable {f f' : ResultShape.Findings} (hf : L.Findings f f')

include hf

theorem nextStatement :
    L.Findings { f with context := f.context.nextStatement }
      { f' with context := f'.context.nextStatement } :=
  ⟨hf.context.nextStatement, hf.model, hf.untyped⟩

theorem addResultSet {set set' : ResultSet} (hs : L.Set set set') :
    L.Findings { f with model := { f.model with resultSets := f.model.resultSets ++ [set] } }
      { f' with model := { f'.model with resultSets := f'.model.resultSets ++ [set'] } } :=
  ⟨hf.context,
    ⟨List.rel_append hf.model.resultSets (.cons hs .nil), hf.model.executedRoutines,
      hf.model.parameterTypes⟩,
    hf.untyped⟩

end Findings

section

variable (h : L.Lawful env)

include h

private theorem bindScalar_walks {name name' : String} (hn : L.same name name') {facts : TypeFacts}
    (hfacts : L.holds facts.facts) :
    L.Walks env Any (Walk.bindings (·.bindScalar name facts))
      (Walk.bindings (·.bindScalar name' facts)) := by
  refine .modify fun f f' hf =>
    ⟨hf.context.withBindings ⟨?_, hf.context.bindings.tables⟩, hf.model, hf.untyped⟩
  simp only [Bindings.bindScalar, h.fold_eq hn]
  exact hf.context.bindings.scalars.insert _ ⟨rfl, hfacts⟩

private theorem bindTable_walks {name name' : String} (hn : L.same name name') {m m' : ColumnMap}
    (hm : L.Map m m') :
    L.Walks env Any (Walk.bindings (·.bindTable name m))
      (Walk.bindings (·.bindTable name' m')) := by
  refine .modify fun f f' hf =>
    ⟨hf.context.withBindings ⟨hf.context.bindings.scalars, ?_⟩, hf.model, hf.untyped⟩
  simp only [Bindings.bindTable, h.fold_eq hn]
  exact hf.context.bindings.tables.insert _ hm

omit h in
private theorem useType_walks (reference : Reference) :
    L.Walks env Any (Walk.useType reference) (Walk.useType reference) := by
  refine .modify fun f f' hf => ?_
  rw [hf.model.parameterTypes]
  split
  · exact hf
  · exact ⟨hf.context, ⟨hf.model.resultSets, hf.model.executedRoutines, rfl⟩, hf.untyped⟩

omit h in
private theorem useUserType_walks (facts : TypeFacts) :
    L.Walks env Any (Walk.useUserType facts) (Walk.useUserType facts) := by
  unfold Walk.useUserType
  split
  · exact useType_walks _
  · exact .pure trivial

private theorem bindTableOfType_walks {name name' : String} (hn : L.same name name') {type : Name}
    {records : List ColumnRecord} (hr : env.catalog.tableTypeColumns? type = some records) :
    L.Walks env Any (Walk.bindTableOfType name type records)
      (Walk.bindTableOfType name' type records) := by
  have ho : ColumnSource.Alike L.same { table := name } { table := name' } :=
    ⟨.none, .some hn, .none, rfl⟩
  have hbind :=
    bindTable_walks h hn (.ofRecords h ho fun r hm => ⟨type, records, hm, .inr (.inr hr)⟩)
  exact .catalog (hbind.bind fun _ _ _ => .defaultSchema (useType_walks _))

private theorem bindParameter_walks (p : Parameter) (hk : L.allows (.dataType p.type)) :
    L.Walks env Any (Walk.bindParameter p) (Walk.bindParameter (p.rewrite L.rewriting)) := by
  refine .catalog ?_
  simp only [Parameter.rewrite]
  split
  · rename_i records hrecords
    exact bindTableOfType_walks h (h.name _) hrecords
  · exact .catalog
      ((useUserType_walks _).bind fun _ _ _ => bindScalar_walks h (h.name _) (h.written hk))

/-- A type is found alike, and a variable may have it. -/
private theorem typeOf_walks {e : Expr} (hk : ∀ k ∈ e.allConstructs, L.allows k) :
    L.Walks env (fun o o' => o = o' ∧ ∀ facts ∈ o, L.holds facts.facts) (Walk.typeOf e)
      (Walk.typeOf (L.rewriting.value (e.rewrite L.rewriting))) := by
  simp only [Expr.allConstructs, List.mem_append, List.mem_flatMap, or_imp, forall_and,
    forall_exists_index, and_imp] at hk
  refine (Walks.ask fun k =>
    resolve h e (fun q hq => (within h k q fun k hk' => hk.2 k q hq hk').1) hk.1).bind
    fun c c' hc => .pure ?_
  rw [hc.alike.sqlType, hc.alike.userType]
  refine ⟨rfl, fun facts hfacts => ?_⟩
  obtain ⟨sqlType, hsqlType, rfl⟩ := Option.map_eq_some_iff.1 hfacts
  have hcopied := h.copied hc.holds none none
  rw [ResultColumn.facts, hc.alike.sqlType, hc.alike.userType, hsqlType] at hcopied
  exact hcopied

private theorem bindUntyped_walks (d : VariableDeclaration) (hk : L.allows (.dataType d.type))
    {o : Option TypeFacts} (ho : ∀ facts ∈ o, L.holds facts.facts) :
    L.Walks env Any (Walk.bindUntyped d o) (Walk.bindUntyped (d.rewrite L.rewriting) o) := by
  cases o with
  | some facts => exact bindScalar_walks h (h.name _) (ho facts rfl)
  | none =>
    have huntyped :
        L.Walks env Any (modify fun f => { f with untyped := Text.fold d.name :: f.untyped })
        (modify fun f => { f with untyped := Text.fold (L.rewriting.name d.name) :: f.untyped }) :=
      .modify fun f f' hf =>
        ⟨hf.context, hf.model, congrArg₂ List.cons (fold_name h _).symm hf.untyped⟩
    exact huntyped.bind fun _ _ _ => .catalog (bindScalar_walks h (h.name _) (h.written hk))

private theorem declareVariable_walks (d : VariableDeclaration)
    (hk : ∀ k ∈ d.constructs, L.allows k) :
    L.Walks env Any (Walk.declareVariable d) (Walk.declareVariable (d.rewrite L.rewriting)) := by
  simp only [VariableDeclaration.constructs, List.mem_cons, or_imp, forall_and, forall_eq] at hk
  obtain ⟨htype, hdefault⟩ := hk
  have hwritten := h.written htype
  refine .catalog ?_
  simp only [VariableDeclaration.rewrite]
  split
  · rename_i records hrecords
    exact bindTableOfType_walks h (h.name _) hrecords
  · refine .catalog ?_
    split
    · rename_i facts hfacts
      rw [Catalog.resolveType, hfacts] at hwritten
      exact (useUserType_walks _).bind fun _ _ _ => bindScalar_walks h (h.name _) hwritten
    · cases hd : d.default with
      | none => exact bindUntyped_walks h d htype fun _ hf => by cases hf
      | some e =>
        rw [hd] at hdefault
        refine (typeOf_walks h hdefault).bind ?_
        rintro o _ ⟨rfl, ho⟩
        exact bindUntyped_walks h d htype ho

private theorem setVariable_walks (name : String) {value : Expr}
    (hk : ∀ k ∈ value.allConstructs, L.allows k) :
    L.Walks env Any (Walk.setVariable name value)
      (Walk.setVariable (L.rewriting.name name)
        (L.rewriting.value (value.rewrite L.rewriting))) := by
  refine .get fun f f' hf => ?_
  have hscalar : (f.context.bindings.scalar? name).isSome =
      (f'.context.bindings.scalar? (L.rewriting.name name)).isSome := by
    rw [Bindings.scalar?, Bindings.scalar?, fold_name h]
    exact isSome_eq (hf.context.bindings.scalars.get? _)
  rw [← hscalar, ← hf.untyped, fold_name h]
  split
  · exact .pure trivial
  · refine (typeOf_walks h hk).bind ?_
    rintro o _ ⟨rfl, ho⟩
    cases o with
    | none => exact .pure trivial
    | some facts =>
      refine (bindScalar_walks h (h.name _) (ho facts rfl)).bind fun _ _ _ =>
        .modify fun f f' hf => ?_
      exact ⟨hf.context, hf.model, by rw [hf.untyped]⟩

private theorem declareTable_walks (name : String) {columns : List ColumnDefinition}
    (hk : ∀ k ∈ columnConstructs columns, L.allows k) :
    L.Walks env Any (Walk.declareTable name columns)
      (Walk.declareTable (L.rewriting.name name) (columns.map (·.rewrite L.rewriting))) := by
  refine .catalog (bindTable_walks h (h.name _) (.ofDefinitions h (h.name _) ?_))
  exact forall₂_map_of_mem fun c hc => ⟨h.name _, rfl, rfl, hk _ (List.mem_map_of_mem hc)⟩

private theorem execute_walks (e : Execute) :
    L.Walks env Any (Walk.execute e) (Walk.execute (e.rewrite L.rewriting)) := by
  have hname := name_alike h e.procedure
  refine .defaultSchema (.modify fun f f' hf => ?_)
  refine ⟨hf.context, ⟨hf.model.resultSets, ?_, hf.model.parameterTypes⟩, hf.untyped⟩
  exact List.rel_append hf.model.executedRoutines
    (.cons ⟨hname.catalog, rel_getD hname.schema (h.refl _), hname.name⟩ .nil)

omit h in
private theorem addResultSet_walks {set set' : ResultSet} (hs : L.Set set set') :
    L.Walks env Any (Walk.addResultSet set) (Walk.addResultSet set') :=
  .modify fun _ _ hf => hf.addResultSet hs

private theorem selectQuery_walks {q : Query} (ha : L.Allows q) :
    L.Walks env Any (Walk.selectQuery q) (Walk.selectQuery (q.rewrite L.rewriting)) := by
  refine (Walks.ask fun k => (within h k q ha).1).bind fun set set' hs => ?_
  rw [Query.firstSelect_rewrite, Select.into_rewrite, Query.isVisible_rewrite]
  cases q.firstSelect.into with
  | some target => exact bindTable_walks h (h.name _) (.ofColumns h hs.columns .nil)
  | none =>
    dsimp only [Option.map_none]
    split
    · exact addResultSet_walks hs
    · exact .pure trivial

private theorem output_walks {ctes : List ResultShape.Cte} {target : Source} (sources : List Source)
    (isMerge : Bool)
    {output : Option OutputClause}
    (hk : ∀ k ∈ outputConstructs ctes (target :: sources) output, L.allows k) :
    L.Walks env Any (Walk.output ctes target sources isMerge output)
      (Walk.output (ctes.map (Cte.rewrite L.rewriting)) (target.rewrite L.rewriting)
        (sources.map (Source.rewrite L.rewriting)) isMerge
          (output.map (OutputClause.rewrite L.rewriting))) := by
  cases output with
  | none => exact .pure trivial
  | some clause =>
    simp only [outputConstructs, Option.elim, List.mem_append, List.mem_flatMap, or_imp, forall_and,
      forall_exists_index, and_imp] at hk
    obtain ⟨⟨hctes, hsources, hqueries⟩, hitems, hitemQueries⟩ := hk
    simp only [Option.map_some, Walk.output, OutputClause.rewrite, Option.isSome_map]
    split
    · exact .pure trivial
    · refine Walks.bind (Walks.ask fun k => changedRows h (within h k) ?_ ?_ ?_ ?_ ?_ isMerge)
        fun _ _ hs => addResultSet_walks hs
      · exact fun cte hc k hk => hctes k cte hc hk
      · exact fun s hs q hq k hk => hqueries k s hs q hq hk
      · exact fun s hs k hk => hsources k s hs hk
      · exact fun i hi q hq k hk => hitemQueries k i hi q hq hk
      · exact fun i hi k hk => hitems k i hi hk

variable (hv : L.rewriting.KeepsQueries)

include hv

/-- An action and the action rewritten have alike effects. -/
theorem action_walks (returnsTable : Bool) (a : Action) (hk : ∀ k ∈ a.constructs, L.allows k) :
    L.Walks env Any (Walk.action returnsTable a)
      (Walk.action returnsTable (a.rewrite L.rewriting)) := by
  cases a with
  | select query => exact selectQuery_walks h hk
  | insert s =>
    have ho := output_walks h [] false hk
    obtain ⟨ctes, target, columns, source, output⟩ := s
    cases source with
    | execute call => exact (execute_walks h call).bind fun _ _ _ => ho
    | values | query | defaultValues => exact ho
  | update s => exact output_walks h s.sources false hk
  | delete s => exact output_walks h s.sources false hk
  | merge s => exact output_walks h [s.source] true hk
  | execute call => exact execute_walks h call
  | declare declarations =>
    exact .forM_map _ fun d hd =>
      declareVariable_walks h d fun k hk' => hk k (List.mem_flatMap.2 ⟨d, hd, hk'⟩)
  | declareTable name columns => exact declareTable_walks h name hk
  | set name value => exact setVariable_walks h name hk
  | «return» value =>
    rw [Action.rewrite, Walk.action_return, Walk.action_return]
    split
    · cases value with
      | none => exact .pure trivial
      | some e =>
        rw [Option.map_some, Option.bind_some, Option.bind_some, Expr.query?_rewrite hv]
        cases e with
        | subquery query =>
          exact selectQuery_walks h fun k hk' => hk k (by
            simpa [Action.constructs, Expr.allConstructs, Expr.constructs, Expr.queries] using hk')
        | _ => exact .pure trivial
    · exact .pure trivial
  | other text => exact .pure trivial

private theorem actions_walks (returnsTable : Bool) {as : List Action}
    (hk : ∀ k ∈ as.flatMap Action.constructs, L.allows k) :
    L.Walks env Any (as.forM (Walk.step returnsTable))
      ((as.map (Action.rewrite L.rewriting)).forM (Walk.step returnsTable)) :=
  .forM_map _ fun a ha =>
    Walks.bind (S := Any) (.modify fun _ _ hf => hf.nextStatement) fun _ _ _ =>
    action_walks h hv returnsTable a fun k hk' => hk k (List.mem_flatMap.2 ⟨a, ha, hk'⟩)

omit hv in
private theorem returnTable_walks (name : String) :
    L.Walks env Any (Walk.returnTable name) (Walk.returnTable (L.rewriting.name name)) := by
  refine .get fun f f' hf => ?_
  have htable := hf.context.bindings.tables.get? (Text.fold name)
  rw [Bindings.table?, Bindings.table?, fold_name h]
  generalize f.context.bindings.tables.get? (Text.fold name) = m at htable
  generalize f'.context.bindings.tables.get? (Text.fold name) = m' at htable
  cases htable with
  | none => exact .pure trivial
  | some hm =>
    refine addResultSet_walks ⟨?_, rfl, rfl, .none, rfl, rfl, rfl, fun _ => rfl, .none⟩
    exact List.rel_map (fun _ _ hi => hi.project h (h.name name) false) hm.values

/-- The walks over a routine and over the routine rewritten go alike. -/
theorem routine_walks (r : Routine) (hk : ∀ k ∈ r.constructs, L.allows k) :
    L.Walks env Any (Walk.routine r) (Walk.routine (r.rewrite L.rewriting)) := by
  simp only [Routine.constructs, List.mem_append, List.mem_map, or_imp, forall_and,
    forall_exists_index, and_imp, forall_apply_eq_imp_iff₂] at hk
  obtain ⟨⟨hparameters, htable⟩, hactions⟩ := hk
  have hstatements : L.Walks env Any (Walk.statements (r.kind == .tableFunction) r.body)
      (Walk.statements (r.kind == .tableFunction) (Statement.rewriteAll L.rewriting r.body)) := by
    rw [Walk.statements_eq_forM, Walk.statements_eq_forM, Statement.actionsAll_rewriteAll]
    exact actions_walks h hv _ hactions
  have hbind : L.Walks env Any (r.parameters.forM Walk.bindParameter)
      ((r.parameters.map (Parameter.rewrite L.rewriting)).forM Walk.bindParameter) :=
    .forM_map _ fun p hp => bindParameter_walks h p (hparameters p hp)
  refine hbind.bind fun _ _ _ => ?_
  cases ht : r.returnTable with
  | none =>
    simp only [Routine.rewrite, ht, Option.map_none]
    exact hstatements.bind fun _ _ _ => .pure trivial
  | some t =>
    rw [ht] at htable
    simp only [Routine.rewrite, ht, Option.map_some]
    exact (declareTable_walks h t.1 htable).bind fun _ _ _ => hstatements.bind fun _ _ _ =>
      returnTable_walks h t.1

end

theorem Findings.start : L.Findings {} {} :=
  ⟨⟨.nil, ⟨.empty, .empty⟩, .nil, .empty, .empty, rfl, rfl, rfl⟩, ⟨.nil, .nil, rfl⟩, rfl⟩

end Likeness

end ResultShape
