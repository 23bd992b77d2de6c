import ResultShape.Proofs.Analysis.ReadBack
import ResultShape.Proofs.Analysis.Replay
import ResultShape.Proofs.Analysis.Weakening
/-! Named queries: a query gives the same columns where it stands for itself, where it is a derived
table and where it defines a CTE. -/
namespace ResultShape

/-- No query is open, and of statements from this number on no columns of CTEs are kept. -/
structure Context.Idle (first : Nat) (c : Context) : Prop where
  scopes : c.scopes = []
  cteFrames : c.cteFrames = []
  ctesInProgress : c.ctesInProgress = []
  anchored : c.Anchored
  depth : c.depth = 0
  cteCache : ∀ key : Nat × String, first ≤ key.1 → c.cteCache.get? key = none

/-- The query under a `WITH` clause. -/
def Query.under (ctes : List Cte) (q : Query) : Query := { q with ctes }

/-- A query without a `WITH` clause and the CTEs for it, in which a name does not occur. -/
structure Nameable (name : String) (ctes : List Cte) (q : Query) : Prop where
  plain : q.ctes = []
  query : q.Avoids name
  ctes : ∀ cte ∈ ctes, Text.same cte.name name = false ∧ cte.query.Avoids name

/-- The environment in which one more query may be open. -/
def Env.deeper (env : Env) : Env := env.limited (env.config.maxNestingDepth + 1)

variable {name : String} {names : List String} {ctes : List Cte} {q : Query} {env : Env} {k : Nat}
  {c c₁ : Context}

namespace Nameable

/-- The same definitions, but for one of the name that does not occur, and one more open query. -/
private theorem around (h : Nameable name ctes q) (hc : c.Idle c.statement) (stack : ScopeStack)
    (frames : List (List Cte)) (inProgress : List String) (hs : ScopeStack.Padded [] stack)
    (hf : ∀ n, Text.same n name = false →
      frames.flatten.find? (fun cte => Text.same cte.name n) = ctes.find? fun cte =>
        Text.same cte.name n)
    (hp : ∀ n, Text.same n name = false → Text.fold n ∉ inProgress) :
    (c.inside (q.under ctes)).Around name 1
      { c with
        scopes := stack, cteFrames := frames, ctesInProgress := inProgress,
        depth := c.depth + 2 } := by
  have hfind (n : String) :
      (c.inside (q.under ctes)).findCte? n = ctes.find? fun cte => Text.same cte.name n := by
    simp only [Context.findCte?, Context.inside, Context.pushCtes, hc.cteFrames, List.flatten_cons,
      List.flatten_nil, List.append_nil]
    rfl
  refine ⟨?_, rfl, rfl, rfl, fun n hn => (hf n hn).trans (hfind n).symm,
    fun n cte _ hcte => ?_, fun _ _ => rfl, fun _ _ => rfl, fun n hn => ?_⟩
  · change ScopeStack.Padded c.scopes stack
    rwa [hc.scopes]
  · rw [hfind] at hcte
    exact (h.ctes cte (List.mem_of_find?_eq_some hcte)).2
  · have hin : Text.fold n ∉ c.ctesInProgress := by simp [hc.ctesInProgress]
    rw [Bool.eq_iff_iff]
    simp only [Context.isCteInProgress, Context.inside, Context.pushCtes,
      List.contains_iff_mem, hp n hn, hin]

/-- One more definition after the others is found by its name and by no other. -/
private theorem find?_defining (h : Nameable name ctes q) (names : List String) (n : String) :
    (ctes ++ [(⟨name, names, q⟩ : Cte)]).find? (fun cte => Text.same cte.name n) =
      if Text.same n name then some ⟨name, names, q⟩ else ctes.find? fun cte =>
        Text.same cte.name n := by
  rw [List.find?_append, List.find?_singleton, Text.same_comm name n]
  split
  · rename_i hn
    have hnone : ctes.find? (fun cte => Text.same cte.name n) = none := by
      refine List.find?_eq_none.2 fun cte hm => ?_
      rw [Text.same, Text.same_iff.1 hn]
      exact Bool.eq_false_iff.1 (h.ctes cte hm).1
    rw [hnone]
    rfl
  · exact Option.or_none

/-- Where the query is inside a derived table. -/
private theorem around_derived (h : Nameable name ctes q) (hc : c.Idle c.statement)
    (source : Source) :
    (c.inside (q.under ctes)).Around name 1
      ((c.inside (.readAll ctes source)).pushScope.inside q) := by
  refine h.around hc ({} :: c.scopes) (q.ctes :: ctes :: c.cteFrames) c.ctesInProgress ?_
    (fun n _ => ?_) fun n _ => ?_
  · rw [hc.scopes]
    exact .empty .nil
  · rw [h.plain, hc.cteFrames, List.flatten_cons, List.flatten_cons, List.flatten_nil,
      List.append_nil, List.nil_append]
  · rw [hc.ctesInProgress]
    exact List.not_mem_nil

/-- Where the query is the definition of a CTE. -/
private theorem around_computing (h : Nameable name ctes q) (hc : c.Idle c.statement)
    (source : Source) :
    let here := ((c.inside (.readAll (ctes ++ [⟨name, names, q⟩]) source)).pushScope).computing name
    (c.inside (q.under ctes)).Around name 1 { here with depth := here.depth + 1 } := by
  intro here
  have hhere : here = { (c.inside (.readAll (ctes ++ [⟨name, names, q⟩]) source)).pushScope with
      scopes := [], ctesInProgress := Text.fold name :: c.ctesInProgress } := by
    refine Context.computing_eq ?_
    change c.ctesInProgress.contains (Text.fold name) = false
    rw [hc.ctesInProgress]
    rfl
  rw [hhere]
  refine h.around hc [] ((ctes ++ [⟨name, names, q⟩]) :: c.cteFrames)
    (Text.fold name :: c.ctesInProgress) .nil
    (fun n hn => ?_) fun n hn => ?_
  · rw [hc.cteFrames, List.flatten_cons, List.flatten_nil, List.append_nil, h.find?_defining,
      if_neg (by simp [hn])]
  · rw [hc.ctesInProgress, List.mem_singleton]
    exact fun he => Bool.eq_false_iff.1 hn (Text.same_iff.2 he)

end Nameable

namespace Analysis

open Context

/-- The query, or a part of its body, in a context with more around. -/
private theorem body_again {b : Body} (h : Nameable name ctes q) {c' : Context}
    (hr : b.references ⊆ q.body.references)
    (hq : b.queries ⊆ q.body.queries) (ha : c.Around name 1 c') {p : Projection}
    (hb : (b.project (Nested.within k)).outcome env c = (.ok p, c₁)) :
    ∃ c₁', (b.project (Nested.within k)).outcome env.deeper c' = (.ok p, c₁') ∧
      c₁.Around name 1 c₁' ∧
      c'.SamePlace c₁' := by
  have hbody := Weakens.body (fun n hn => h.query.references n (hr hn))
    (fun r hm => h.query.inner (List.mem_append_right _ (hq hm))) 1 env k
  obtain ⟨c₁', hb', ha', -, hplace⟩ := hbody c c' ha p c₁ hb
  exact ⟨c₁', hb', ha', hplace⟩

private theorem query_again (h : Nameable name ctes q) {c' : Context}
    (hd : c'.depth < env.config.maxNestingDepth + 1)
    (ha : c.Around name 1 (c'.inside q)) {p : Projection}
    (hb : (q.body.project (Nested.within k)).outcome env c = (.ok p, c₁)) :
    ∃ set c₁', ((Nested.within (k + 1)).query q).outcome env.deeper c' = (.ok set, c₁') ∧
      set.columns = ResultColumn.assignNames p.columns ∧ c₁.scopes.Padded c₁'.scopes := by
  obtain ⟨c₂, hb', ha', -⟩ := body_again h (fun _ hm => hm) (fun _ hm => hm) ha hb
  exact ⟨_, _, outcome_query_eq_ok.2 ⟨hd, p, c₂, hb', rfl, rfl⟩,
    Query.columns_resultOf _ _ _, ha'.scopes⟩

private theorem exists_add_eq_cons {stack : ScopeStack}
    (hs : ScopeStack.Padded [] stack) (e : Entry)
    (keys : List String) : ∃ rest, stack.add e keys = Scope.add {} e keys :: rest := by
  cases hs with
  | nil => exact ⟨[], rfl⟩
  | @empty rest _ => exact ⟨rest, rfl⟩

private theorem outcome_register_derived {n : Nested} {set : ResultSet} (name : String)
    (names : List String) (h : (n.query q).outcome env c = (.ok set, c₁)) :
    ∃ range, ((Source.derived q name names).register n).outcome env c =
      (.ok range, { c₁ with
        scopes :=
          c₁.scopes.add (.resolved name none (some (.ofColumns set.columns names))) [name] }) :=
  ⟨_, outcome_added_of_ok (outcome_bind_eq_ok.2 ⟨set, c₁, h, rfl⟩)⟩

/-- A derived table has the columns of its query. -/
theorem outcome_readAll_derived (h : Nameable name ctes q) (hc : c.Idle c.statement)
    {set : ResultSet}
    (hd : ((Nested.within (k + 1)).query (q.under ctes)).outcome env c = (.ok set, c₁))
    (hn : Renames names set.columns.length) :
    ∃ read c',
      ((Nested.within (k + 2)).query (.readAll ctes (.derived q name names))).outcome env.deeper c =
        (.ok read, c') ∧
      read.columns.map (·.info) = ColumnInfo.renameAll names (set.columns.map (·.info)) := by
  obtain ⟨hdepth, p, c₂, hp, rfl, rfl⟩ := outcome_query_eq_ok.1 hd
  rw [Query.columns_resultOf] at hn ⊢
  obtain ⟨hvalues, hreadable⟩ := hn.values_ofColumns
  rw [← hvalues]
  have hempty : c₂.scopes = [] := by
    rw [Replays.eq_withCache_of_project (c := c.inside (q.under ctes)) hc.anchored hc.scopes hp]
    exact hc.scopes
  obtain ⟨inner, c₃, hinner, hcolumns, hs⟩ :=
    query_again h (Nat.succ_lt_succ hdepth) (h.around_derived hc _) hp
  obtain ⟨range, hregister⟩ := outcome_register_derived name names hinner
  rw [hcolumns] at hregister
  obtain ⟨rest, hadd⟩ := exists_add_eq_cons (hempty ▸ hs) _ _
  exact outcome_readAll (Nat.lt_succ_of_lt hdepth) hregister hadd rfl rfl rfl hreadable

/-- The leftmost branch of the query may be resolved before it, and what the CTE
shows to itself is never seen. -/
private theorem exists_anchors (h : Nameable name ctes q) (hc : c.Idle c.statement)
    {place : Context} (hd : place.depth < env.config.maxNestingDepth + 1)
    (ha : (c.inside (q.under ctes)).Around name 1 { place with depth := place.depth + 1 })
    {p : Projection}
    (hp : (q.body.project (Nested.within k)).outcome env (c.inside (q.under ctes)) = (.ok p, c₁))
    (names : List String) :
    ∃ c₂ c₂', Anchors (Nested.within (k + 1)) env.deeper ⟨name, names, q⟩ place c₂' ∧
      c₂'.depth = place.depth ∧
      c₂.Around name 1 (c₂'.inside q) ∧
      (q.body.project (Nested.within k)).outcome env c₂ = (.ok p, c₁) := by
  have hplain (c' : Context) : c'.inside q = { c' with depth := c'.depth + 1 }.pushCtes [] := by
    rw [Context.inside, h.plain]
  cases hb : q.body.isSetOp with
  | false =>
    refine ⟨c.inside (q.under ctes), place, .none hb, rfl, ?_, hp⟩
    rw [hplain]
    exact ha.pushCtes_nil
  | true =>
    -- Here the leftmost branch comes first, and the whole body after it comes to what it comes to
    -- without that.
    obtain ⟨l, c₂, hl, hagain⟩ :=
      Replays.leftmost_first (c := c.inside (q.under ctes)) hc.anchored hc.scopes hp
    obtain ⟨c₂', hl', ha', hsame⟩ :=
      body_again h q.body.references_leftmost_subset q.body.queries_leftmost_subset ha hl
    have hdeeper : c₂'.depth = place.depth + 1 := hsame.depth
    have hanchor : ((Nested.within (k + 1)).anchor q).outcome env.deeper place =
        (.ok (ResultColumn.assignNames l.columns), c₂'.leave) :=
      outcome_anchor_eq_ok.2 ⟨hd, l, c₂', hl', rfl, rfl⟩
    refine ⟨c₂, _, .branch hb hanchor, ?_, ?_, hagain⟩
    · exact congrArg (· - 1) hdeeper
    · rw [hplain, Context.setCteAnchor, Context.leave, hdeeper, Nat.add_sub_cancel, ← hdeeper]
      exact (ha'.setCteAnchor_self _).pushCtes_nil

/-- The query is resolved where a CTE is computed that it defines. -/
private theorem outcome_computeCte_named (h : Nameable name ctes q) (hc : c.Idle c.statement)
    {place : Context} (hd : place.depth < env.config.maxNestingDepth + 1)
    (ha : (c.inside (q.under ctes)).Around name 1 { place with depth := place.depth + 1 })
    {p : Projection}
    (hp : (q.body.project (Nested.within k)).outcome env (c.inside (q.under ctes)) = (.ok p, c₁))
    (names : List String) :
    ∃ c', (computeCte (Nested.within (k + 1)) ⟨name, names, q⟩).outcome env.deeper place =
      (.ok (.ofColumns (ResultColumn.assignNames p.columns) names), c') := by
  obtain ⟨c₂, c₂', hanchors, hdepth, ha', hp'⟩ := exists_anchors h hc hd ha hp names
  obtain ⟨set, c', hset, hcolumns, -⟩ := query_again h (hdepth ▸ hd) ha' hp'
  exact ⟨c', outcome_computeCte_eq_ok.2 ⟨c₂', set, hanchors, hset, by rw [hcolumns]⟩⟩

private theorem outcome_register_cte {n : Nested} {cte : Cte} {m : ColumnMap}
    (hlocal : (Name.bare name).isLocal = false)
    (hfind : c.findCte? name = some cte) (h : (cteColumns n cte).outcome env c = (.ok m, c₁)) :
    ∃ range, ((Source.named (.bare name) none).register n).outcome env c =
      (.ok range, { c₁ with
        scopes := c₁.scopes.add
          { Entry.resolved cte.name none (some m) with isCte := true } [cte.name] }) := by
  refine ⟨_, outcome_added_of_ok ?_⟩
  have hnamed : c.cteNamed? (.bare name) = some cte := hfind
  unfold addNamed
  rw [if_neg (by simp [hlocal]), outcome_bind_of_ok (outcome_get env c), hnamed]
  exact outcome_bind_eq_ok.2 ⟨m, c₁, h, rfl⟩

/-- A CTE has the columns of its query. -/
theorem outcome_readAll_cte (h : Nameable name ctes q) (hc : c.Idle c.statement)
    (hlocal : (Name.bare name).isLocal = false) {set : ResultSet}
    (hd : ((Nested.within (k + 1)).query (q.under ctes)).outcome env c = (.ok set, c₁))
    (hn : Renames names set.columns.length) :
    ∃ read c', ((Nested.within (k + 2)).query
        (.readAll (ctes ++ [⟨name, names, q⟩]) (.named (.bare name) none))).outcome env.deeper c =
          (.ok read, c') ∧
      read.columns.map (·.info) = ColumnInfo.renameAll names (set.columns.map (·.info)) := by
  obtain ⟨hdepth, p, c₂, hp, rfl, rfl⟩ := outcome_query_eq_ok.1 hd
  rw [Query.columns_resultOf] at hn ⊢
  obtain ⟨hvalues, hreadable⟩ := hn.values_ofColumns
  rw [← hvalues]
  let cte : Cte := ⟨name, names, q⟩
  let here := (c.inside (.readAll (ctes ++ [cte]) (.named (.bare name) none))).pushScope
  -- The name finds the CTE, of which nothing is kept and which is not being computed, so it is
  -- computed now.
  have hfind : here.findCte? name = some cte := by
    change ((ctes ++ [cte]) :: c.cteFrames).flatten.find? _ = _
    rw [hc.cteFrames, List.flatten_cons, List.flatten_nil, List.append_nil, h.find?_defining,
      if_pos (Text.same_refl name)]
  have hprogress : here.isCteInProgress name = false := by
    change c.ctesInProgress.contains (Text.fold name) = false
    rw [hc.ctesInProgress]
    rfl
  have hcached : here.cachedCte? name = none := hc.cteCache _ (Nat.le_refl _)
  have hdeeper : (here.computing name).depth < env.config.maxNestingDepth + 1 := by
    rw [computing_eq hprogress]
    exact Nat.succ_lt_succ hdepth
  obtain ⟨c₃, hcompute⟩ := outcome_computeCte_named h hc hdeeper (h.around_computing hc _) hp names
  have hcolumns : (cteColumns (Nested.within (k + 1)) cte).outcome env.deeper here = (.ok _, _) :=
    outcome_cteColumns_eq_ok.2 (.inr (.inr ⟨hcached, hprogress, c₃, hcompute, rfl⟩))
  obtain ⟨range, hregister⟩ := outcome_register_cte hlocal hfind hcolumns
  exact outcome_readAll (Nat.lt_succ_of_lt hdepth) hregister rfl rfl rfl rfl hreadable

/-- A local table has the columns that it is bound to. -/
theorem outcome_readAll_local {m : ColumnMap} (hd : c.depth < env.config.maxNestingDepth)
    (hlocal : (Name.bare name).isLocal = true) (hm : c.bindings.table? name = some m)
    (hreadable : Readable m.values) :
    ∃ read c',
      ((Nested.within (k + 1)).query (.readAll [] (.named (.bare name) none))).outcome env c =
        (.ok read, c') ∧
      read.columns.map (·.info) = m.values := by
  let here := (c.inside (.readAll [] (.named (.bare name) none))).pushScope
  have hregister : (addNamed (Nested.within k) (.bare name) none).outcome env here =
      (.ok (), { here with scopes := here.scopes.add (.resolved name none (some m)) [name] }) := by
    rw [addNamed, if_pos hlocal]
    refine outcome_bind_eq_ok.2 ⟨here.bindings, here, rfl, ?_⟩
    have hbound : here.bindings.table? name = some m := hm
    rw [show (Name.bare name).name = name from rfl, hbound]
    rfl
  exact outcome_readAll hd (outcome_added_of_ok hregister) rfl rfl rfl rfl hreadable

end Analysis

end ResultShape
