import ResultShape.Proofs.Used.Expr
/-! Queries over used objects: a query gives a result set that mentions only what is used
if every body in it names only tables and calls only functions that are, among the
definitions in sight of that body. -/
namespace ResultShape

/-- Among the definitions in sight, the tables and views that some names mean are
used, and so are some functions. -/
structure NamesUsed (used : Reference → Prop) (env : Env) (inSight : List Cte)
    (tables functions : List Name) : Prop where
  tables : ∀ n ∈ tables, n.isLocal = false → ¬ n.MeansCte inSight →
    n.UsedAs used env ((env.catalog.objectKind? n).getD .table)
  functions : ∀ n ∈ functions, n.UsedAs used env .function

/-- What the blocks of a body name by themselves is used. -/
def Body.UsesOnly (used : Reference → Prop) (env : Env) (inSight : List Cte) (b : Body) : Prop :=
  NamesUsed used env inSight b.references b.calls

/-- What stands in a definition names only what is used, among the definitions in sight of it; so
does the leftmost branch of a set operation without the `WITH` clause of the definition in sight. -/
structure Cte.UsesOnly (used : Reference → Prop) (env : Env) (inSight : List Cte)
    (cte : Cte) : Prop where
  query : cte.query.Everywhere (Body.UsesOnly used env) inSight
  leftmost : cte.query.body.isSetOp → cte.query.body.leftmost.UsesOnly used env inSight ∧
    ∀ r ∈ cte.query.body.leftmost.queries, r.Everywhere (Body.UsesOnly used env) inSight

/-- Each definition around a place names only what is used, among definitions
that are around the place too. -/
def FramesUsed (used : Reference → Prop) (env : Env) (frames : List (List Cte)) : Prop :=
  ∀ cte ∈ frames.flatten, ∃ inSight, inSight ⊆ frames.flatten ∧ cte.UsesOnly used env inSight

variable {used : Reference → Prop} {env : Env} {frames : List (List Cte)} {inSight : List Cte}

theorem NamesUsed.mono {tables tables' functions functions' : List Name} {inSight' : List Cte}
    (h : NamesUsed used env inSight tables functions) (hs : inSight ⊆ inSight')
    (ht : tables' ⊆ tables)
    (hf : functions' ⊆ functions) : NamesUsed used env inSight' tables' functions' := by
  refine ⟨fun n hn hlocal hcte => h.tables n (ht hn) hlocal ?_, fun n hn => h.functions n (hf hn)⟩
  rintro ⟨hschema, hcatalog, cte, hc, hname⟩
  exact hcte ⟨hschema, hcatalog, cte, hs hc, hname⟩

theorem NamesUsed.among {tables tables' functions functions' : List Name}
    (h : NamesUsed used env inSight tables functions)
    (ht : tables' ⊆ tables) (hf : functions' ⊆ functions) :
    NamesUsed used env inSight tables' functions' :=
  h.mono (List.Subset.refl _) ht hf

theorem Body.UsesOnly.leftmost {b : Body} (h : b.UsesOnly used env inSight) :
    b.leftmost.UsesOnly used env inSight :=
  NamesUsed.among h b.references_leftmost_subset b.calls_leftmost_subset

theorem FramesUsed.nil : FramesUsed used env [] := List.forall_mem_nil _

theorem FramesUsed.push {q : Query} (h : FramesUsed used env frames) (hs : inSight ⊆ frames.flatten)
    (hq : q.Everywhere (Body.UsesOnly used env) inSight) :
    FramesUsed used env (q.ctes :: frames) := by
  intro cte hc
  rw [List.flatten_cons] at hc ⊢
  rcases List.mem_append.1 hc with hc | hc
  · refine ⟨q.ctes ++ inSight, List.append_subset.2 ⟨List.subset_append_left _ _,
      List.subset_append_of_subset_right _ hs⟩, hq.of_mem_ctes hc, fun hset => ?_⟩
    exact hq.leftmost (fun _ _ hb => hb.leftmost) hc hset
  · obtain ⟨around, haround, hcte⟩ := h cte hc
    exact ⟨around, List.subset_append_of_subset_right _ haround, hcte⟩

/-- A name means a CTE in the context if it is that of a definition around. -/
theorem Context.MentionsOnly.meansCte {c : Context} (h : c.MentionsOnly used frames) {n : Name}
    (hn : c.cteNamed? n = none) : ¬ n.MeansCte frames.flatten := by
  rintro ⟨hschema, hcatalog, cte, hc, hname⟩
  unfold Context.cteNamed? Context.findCte? at hn
  rw [hschema, hcatalog, h.cteFrames] at hn
  exact List.find?_eq_none.1 hn cte hc hname

theorem Context.MentionsOnly.mem_of_cteNamed? {c : Context} (h : c.MentionsOnly used frames)
    {n : Name} {cte : Cte} (hn : c.cteNamed? n = some cte) : cte ∈ frames.flatten := by
  unfold Context.cteNamed? Context.findCte? at hn
  split at hn
  · exact h.cteFrames ▸ List.mem_of_find?_eq_some hn
  · cases hn

/-- The definitions around a place come to columns that mention only what is used. -/
def Nested.CtesUsed (used : Reference → Prop) (frames : List (List Cte)) (env : Env)
    (nested : Nested) : Prop :=
  ∀ cte ∈ frames.flatten,
    Analysis.MentionsOnly used frames env (ColumnMap.MentionsOnly used)
      (Analysis.cteColumns nested cte)

namespace Analysis.MentionsOnly

variable {nested : Nested}

/-- The columns of a definition mention only what is used if its leftmost
branch and the whole of it do. -/
theorem cteColumns {cte : Cte}
    (ha : cte.query.body.isSetOp →
      MentionsOnly used frames env (fun cs => ∀ c ∈ cs, c.MentionsOnly used)
        (nested.anchor cte.query))
    (hq : MentionsOnly used frames env (ResultSet.MentionsOnly used) (nested.query cte.query)) :
    MentionsOnly used frames env (ColumnMap.MentionsOnly used) (cteColumns nested cte) := by
  have hset : MentionsOnly used frames env (ColumnMap.MentionsOnly used)
      (do return .ofColumns (← nested.query cte.query).columns cte.columns) :=
    hq.bind fun _ hs => .pure (.ofColumns hs.columns _)
  have hcompute :
      MentionsOnly used frames env (ColumnMap.MentionsOnly used) (computeCte nested cte) := by
    unfold Analysis.computeCte
    dsimp only
    split
    · rename_i hsetOp
      exact (ha hsetOp).bind fun _ hcs =>
        Stays.bind (Stays.modify fun _ hc => hc.setCteAnchor cte.name (.ofColumns hcs _))
          fun _ _ => hset
    · exact hset
  refine Stays.get fun c hc => ?_
  split
  · rename_i m hm
    exact .pure (hc.cteCache.get? hm)
  · split
    · refine .pure ?_
      cases hanchor : c.cteAnchor? cte.name with
      | none => exact .empty
      | some m => exact hc.cteAnchors.get? hanchor
    · exact (computingCte cte.name hcompute).bind fun m hm =>
        Stays.bind (Stays.modify fun _ hc => hc.cacheCte cte.name hm) fun _ _ => .pure hm

variable (ht : env.catalog.TypesUsed used)

private theorem addLocal (name : String) (aliasName : Option String) :
    MentionsOnly used frames env (fun _ => True) (addLocal name aliasName) :=
  Stays.bindings fun _ hc => addEntry (.resolved (fun _ hm => hc.tables.get? hm) _ _) _

private theorem addTable {name : Name}
    (hn : name.UsedAs used env ((env.catalog.objectKind? name).getD .table))
    (aliasName : Option String) : MentionsOnly used frames env (fun _ => True)
    (addTable name aliasName) := by
  refine Stays.defaultSchema (Stays.catalog (addEntry ⟨?_, ?_⟩ _))
  · rintro _ ⟨⟩
    exact hn
  · intro m hm
    cases hm

private theorem addNamed (hc : nested.CtesUsed used frames env) {name : Name}
    (hn : NamesUsed used env frames.flatten [name] []) (aliasName : Option String) :
    MentionsOnly used frames env (fun _ => True) (addNamed nested name aliasName) := by
  unfold Analysis.addNamed
  split
  · exact addLocal name.name aliasName
  · rename_i hlocal
    refine Stays.get fun c hcontext => ?_
    split
    · rename_i cte hcte
      exact (hc cte (hcontext.mem_of_cteNamed? hcte)).bind fun m hm =>
        addEntry (.asCte (.resolved_some hm _ _)) _
    · rename_i hcte
      exact addTable
        (hn.tables name (List.mem_singleton_self name) (by simpa using hlocal)
          (hcontext.meansCte hcte)) _

private theorem addDerived {query : Query}
    (hq : MentionsOnly used frames env (ResultSet.MentionsOnly used) (nested.query query))
    (aliasName : String) (columns : List String) :
    MentionsOnly used frames env (fun _ => True) (addDerived nested query aliasName columns) :=
  hq.bind fun _ hs => addEntry (.resolved_some (.ofColumns hs.columns _) _ _) _

private theorem addFunction (ht : env.catalog.TypesUsed used) {name : Name}
    (hn : name.UsedAs used env .function)
    (aliasName : Option String) : MentionsOnly used frames env (fun _ => True)
    (addFunction name aliasName) := by
  unfold Analysis.addFunction
  split
  · exact addEntry
      (.resolved_some (.ofInfos (List.forall_mem_singleton.2 (.ofFacts unmentioned _ _ _ _))) _ _) _
  · refine Stays.defaultSchema ?_
    have hcolumns : MentionsOnly used frames env (fun o => ∀ m, o = some m → m.MentionsOnly used)
        (functionColumns { name with schema := some (name.schema.getD env.config.defaultSchema) }
          { schema := some (name.schema.getD env.config.defaultSchema), table := some name.name
            objectKind := some .function }) := by
      refine Stays.catalog (.pure fun m hm => ?_)
      obtain ⟨records, -, rfl⟩ := Option.map_eq_some_iff.1 hm
      refine .ofInfos fun i hi => ?_
      obtain ⟨record, -, rfl⟩ := List.mem_map.1 hi
      refine .ofRecord ht ?_ ?_ record
      · rintro _ ⟨⟩
        exact hn none (.inl rfl)
      · rintro _ ⟨⟩
        exact hn name.catalog (.inr rfl)
    refine hcolumns.bind fun columns hm => addEntry ⟨?_, ?_⟩ _
    · rintro _ ⟨⟩ _ (rfl | rfl) <;> exact hn none (.inl rfl)
    · intro m hknown
      cases columns with
      | none => cases hknown
      | some columns =>
        cases hknown
        exact hm _ rfl

private theorem addOpenJson (ht : env.catalog.TypesUsed used) (declared : List OpenJsonColumn)
    (aliasName : Option String) : MentionsOnly used frames env (fun _ => True)
    (addOpenJson declared aliasName) := by
  refine Stays.catalog (addEntry (.resolved_some (.ofInfos fun i hi => ?_) _ _) _)
  split at hi
  · simp only [openJsonDefault, List.mem_cons, List.not_mem_nil, or_false] at hi
    rcases hi with rfl | rfl | rfl <;> exact .ofFacts unmentioned _ _ _ _
  · obtain ⟨c, -, rfl⟩ := List.mem_map.1 hi
    unfold openJsonColumn
    split
    · exact .ofFacts unmentioned _ _ _ _
    · exact .ofFacts (ht c.type) _ _ _ _

private theorem added {x : Analysis Unit} (hx : MentionsOnly used frames env (fun _ => True) x) :
    MentionsOnly used frames env (fun _ => True) (added x) :=
  Stays.get fun _ _ => hx.bind fun _ _ => Stays.get fun _ _ => .pure trivial

private theorem markSide (isNullable : Bool) (side : Nat × Nat) :
    MentionsOnly used frames env (fun _ => True) (markSide isNullable side) := by
  unfold Analysis.markSide
  split
  · exact Stays.modify fun _ hc => hc.withScopes (hc.scopes.markNullable _ _)
  · exact .pure trivial

section Sources

variable (ht : env.catalog.TypesUsed used) (hc : nested.CtesUsed used frames env)

include ht hc

private theorem register (s : Source) (hn : NamesUsed used env frames.flatten s.references s.calls)
    (hq : nested.QueriesUsed used frames env s.queries) :
    MentionsOnly used frames env (fun _ => True) (s.register nested) := by
  induction s using Source.register.induct with
  | case1 name aliasName =>
    exact added (addNamed hc (hn.among (by simp [Source.references]) (List.nil_subset _)) aliasName)
  | case2 name aliasName => exact added (addLocal name aliasName)
  | case3 query aliasName columns =>
    exact added (addDerived (hq query (by simp [Source.queries])) aliasName columns)
  | case4 name args aliasName =>
    exact added (addFunction ht (hn.functions name (by simp [Source.calls])) aliasName)
  | case5 value path columns aliasName => exact added (addOpenJson ht columns aliasName)
  | case6 kind left right on ihl ihr =>
    have hl := ihl (hn.among (by simp [Source.references]) (by simp [Source.calls])) fun q hm =>
      hq q (by simp [Source.queries, hm])
    have hr := ihr (hn.among (by simp [Source.references]) (by simp [Source.calls])) fun q hm =>
      hq q (by simp [Source.queries, hm])
    exact added (hl.bind fun l _ => hr.bind fun r _ => (markSide _ l).bind fun _ _ => markSide _ r)

private theorem registerAll (ss : List Source)
    (hn : NamesUsed used env frames.flatten (ss.flatMap Source.references)
      (ss.flatMap Source.calls))
    (hq : nested.QueriesUsed used frames env (ss.flatMap Source.queries)) :
    MentionsOnly used frames env (fun _ => True)
      (ss.forM fun s => discard (s.register nested)) := by
  refine Stays.forM fun s hs =>
    Stays.discard (register ht hc s ?_ fun q hm => hq q (List.mem_flatMap.2 ⟨s, hs, hm⟩))
  exact hn.among (fun n hm => List.mem_flatMap.2 ⟨s, hs, hm⟩) fun n hm =>
    List.mem_flatMap.2 ⟨s, hs, hm⟩

/-- A body projects columns that mention only what is used if what it names is, and
what the queries in it mention. -/
theorem body (b : Body) (hn : b.UsesOnly used env frames.flatten)
    (hq : nested.QueriesUsed used frames env b.queries) :
    MentionsOnly used frames env (fun p => ∀ c ∈ p.columns, c.MentionsOnly used)
      (b.project nested) := by
  induction b using Body.project.induct with
  | case1 block =>
    have hsources := registerAll ht hc block.sources
      (hn.among (List.Subset.refl _) (List.subset_append_left _ _)) fun q hm =>
        hq q (List.mem_append_left _ hm)
    exact inScope (hsources.bind fun _ _ =>
      projectAll ht block.items (fun q hm => hq q (List.mem_append_right _ hm))
      fun n hm => hn.functions n (List.mem_append_right _ hm))
  | case2 query => exact (hq query (by simp [Body.queries])).bind fun _ hs => .pure hs.columns
  | case3 op left right ihl ihr =>
    have hl := ihl (hn.among (by simp [Body.references]) (by simp [Body.calls])) fun q hm =>
      hq q (by simp [Body.queries, hm])
    have hr := ihr (hn.among (by simp [Body.references]) (by simp [Body.calls])) fun q hm =>
      hq q (by simp [Body.queries, hm])
    exact hl.bind fun _ hp => hr.bind fun _ _ => .pure (Projection.mentionsOnly_union hp)

end Sources

end Analysis.MentionsOnly

/-- Queries, and leftmost branches of queries, in which all is used resolve to columns
that mention only what is used. -/
structure Nested.ResolvesUsed (used : Reference → Prop) (frames : List (List Cte)) (env : Env)
    (nested : Nested) :
    Prop where
  query : ∀ inSight q, inSight ⊆ frames.flatten → q.Everywhere (Body.UsesOnly used env) inSight →
    Analysis.MentionsOnly used frames env (ResultSet.MentionsOnly used) (nested.query q)
  anchor : ∀ inSight q, inSight ⊆ frames.flatten → q.body.leftmost.UsesOnly used env inSight →
    (∀ r ∈ q.body.leftmost.queries, r.Everywhere (Body.UsesOnly used env) inSight) →
    Analysis.MentionsOnly used frames env (fun cs => ∀ c ∈ cs, c.MentionsOnly used)
      (nested.anchor q)

namespace Nested.ResolvesUsed

open Analysis

variable {nested : Nested}

theorem ctesUsed (h : nested.ResolvesUsed used frames env) (hf : FramesUsed used env frames) :
    nested.CtesUsed used frames env := by
  intro cte hcte
  obtain ⟨inSight, hs, hused⟩ := hf cte hcte
  refine .cteColumns (fun hset => ?_) (h.query inSight cte.query hs hused.query)
  obtain ⟨hleft, hinner⟩ := hused.leftmost hset
  exact h.anchor inSight cte.query hs hleft hinner

/-- The body of a query, under the `WITH` clause of the query. -/
private theorem body (ht : env.catalog.TypesUsed used) {q : Query}
    (h : nested.ResolvesUsed used (q.ctes :: frames) env) (hf : FramesUsed used env frames)
    (hs : inSight ⊆ frames.flatten) (hq : q.Everywhere (Body.UsesOnly used env) inSight) :
    Analysis.MentionsOnly used frames env (fun p => ∀ c ∈ p.columns, c.MentionsOnly used)
      (Analysis.withCtes q.ctes (q.body.project nested)) := by
  have hsight : q.ctes ++ inSight ⊆ (q.ctes :: frames).flatten :=
    List.append_subset.2 ⟨List.subset_append_left _ _, List.subset_append_of_subset_right _ hs⟩
  refine .withCtes (.body ht (h.ctesUsed (hf.push hs hq)) q.body ?_ fun r hr => ?_)
  · exact hq.body.mono hsight (List.Subset.refl _) (List.Subset.refl _)
  · exact h.query _ r hsight (hq.of_mem_body hr)

theorem within (ht : env.catalog.TypesUsed used) (k : Nat) (hf : FramesUsed used env frames) :
    (Nested.within k).ResolvesUsed used frames env := by
  -- a query resolves its body with its own definitions around too, so the ones that are around vary
  induction k generalizing frames with
  | zero => exact ⟨fun _ _ _ _ => Stays.read (.throw _), fun _ _ _ _ _ => Stays.read (.throw _)⟩
  | succ k ih =>
    refine ⟨fun inSight q hs hq => .opening ?_, fun inSight q hs hleft hinner => .opening ?_⟩
    · refine (body ht (ih (hf.push hs hq)) hf hs hq).bind fun p hp => Stays.read (.pure ?_)
      have hset := Projection.mentionsOnly_resultSet hp
      cases q.forJson? env.config with
      | none => exact hset
      | some f => exact ⟨hset.reference, hset.columns⟩
    -- the leftmost branch of a definition has only what is around the definition in sight
    · have hbody := Analysis.MentionsOnly.body ht ((ih hf).ctesUsed hf) q.body.leftmost
        (hleft.mono hs (List.Subset.refl _) (List.Subset.refl _)) fun r hr =>
          (ih hf).query inSight r hs (hinner r hr)
      exact hbody.bind fun p hp => .pure (.assignNames hp)

end Nested.ResolvesUsed

/-- A block that reads items from sources, as a query of its own. -/
def Query.block (ctes : List Cte) (sources : List Source) (items : List Item) : Query :=
  ⟨.select ⟨false, none, items, none, sources, none, [], none⟩, ctes, [], none, none⟩

namespace Analysis.MentionsOnly

variable {nested : Nested}

private theorem addPseudoTables (ht : env.catalog.TypesUsed used) (position : Nat)
    (nullable : Bool) :
    MentionsOnly used frames env (fun _ => True) (addPseudoTables position nullable) := by
  refine Stays.get fun c hc => ?_
  split
  · exact .pure trivial
  · rename_i entry hentry
    refine Stays.catalog (Stays.forM fun pseudo _ => addEntry ?_ _)
    have hcopy := ((hc.scopes.entryAt? hentry).load ht).aliased pseudo
    split
    · exact hcopy.markNullable
    · exact hcopy

section Change

variable (ht : env.catalog.TypesUsed used) (hc : nested.CtesUsed used frames env)

include ht hc

private theorem registerTarget (target : Source)
    (hn : NamesUsed used env frames.flatten target.references target.calls)
    (hq : nested.QueriesUsed used frames env target.queries) (nullable : Bool) :
    MentionsOnly used frames env (fun _ => True) (target.registerTarget nested nullable) := by
  have hposition : MentionsOnly used frames env (fun _ => True) (target.targetPosition nested) := by
    refine Stays.get fun c _ => ?_
    split
    · exact .pure trivial
    · exact (register ht hc target hn hq).bind fun _ _ => .pure trivial
  exact hposition.bind fun position _ => addPseudoTables ht position nullable

/-- The rows of a change show only what is used if what its target, its
sources and its items name is. -/
private theorem outputItems (target : Source) (sources : List Source) (isMerge : Bool)
    (items : List Item)
    (hn : (Query.block [] (target :: sources) items).body.UsesOnly used env frames.flatten)
    (hq : nested.QueriesUsed used frames env
      (Query.block [] (target :: sources) items).body.queries) :
    MentionsOnly used frames env (ResultSet.MentionsOnly used)
      (Walk.outputItems target sources isMerge items nested) := by
  have htarget (nullable : Bool) := registerTarget ht hc target
    (hn.among (List.subset_append_left _ _)
      (List.subset_append_of_subset_left _ (List.subset_append_left _ _)))
    (fun q hm => hq q (List.mem_append_left _ (List.mem_append_left _ hm))) nullable
  have hsources := registerAll ht hc sources
    (hn.among (List.subset_append_right _ _)
      (List.subset_append_of_subset_left _ (List.subset_append_right _ _)))
    fun q hm => hq q (List.mem_append_left _ (List.mem_append_right _ hm))
  have hitems := projectAll ht items (fun q hm => hq q (List.mem_append_right _ hm)) fun n hm =>
    hn.functions n (List.mem_append_right _ hm)
  have hchange :
      MentionsOnly used frames env (fun _ => True)
        (Walk.registerChange nested target sources isMerge) := by
    cases isMerge with
    | true => exact (htarget true).bind fun _ _ => hsources
    | false => exact hsources.bind fun _ _ => htarget false
  refine hchange.bind fun _ _ =>
    (hitems.map fun _ hp => Projection.mentionsOnly_resultSet hp).bind fun set hs => ?_
  exact Stays.get fun c hcontext =>
    .pure ⟨fun _ hr => hcontext.scopes.targetReference hr, hs.columns⟩

end Change

theorem changedRows (ht : env.catalog.TypesUsed used) (k : Nat) (ctes : List Cte) (target : Source)
    (sources : List Source) (isMerge : Bool) (items : List Item)
    (hq : (Query.block ctes (target :: sources) items).Everywhere (Body.UsesOnly used env) []) :
    MentionsOnly used [] env (ResultSet.MentionsOnly used)
      (Walk.changedRows ctes target sources isMerge items (Nested.within k)) := by
  have hf : FramesUsed used env [ctes] :=
    @FramesUsed.push _ _ _ _ (Query.block ctes (target :: sources) items) .nil
      (List.nil_subset _) hq
  have hnested := Nested.ResolvesUsed.within ht k hf
  refine inScope
    (withCtes
      (outputItems ht (hnested.ctesUsed hf) target sources isMerge items hq.body fun r hr => ?_))
  exact hnested.query _ r (List.Subset.refl _) (hq.of_mem_body hr)

end Analysis.MentionsOnly

end ResultShape
