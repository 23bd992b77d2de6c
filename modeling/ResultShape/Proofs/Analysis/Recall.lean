import ResultShape.Proofs.Analysis.Replay
/-! Recall: what does not refer to a CTE comes to an answer again, and to the same, where that CTE
shows other columns to itself. The CTEs that it refers to may refer to that one, but their columns
are kept since the first time. -/
namespace ResultShape

/-- The name, of one part and not local, is that of a CTE wherever there is one of this name. -/
def Name.RefersTo (name : String) (n : Name) : Prop :=
  n.isLocal = false ∧ n.schema = none ∧ n.catalog = none ∧ Text.same n.name name = true

/-- A `FROM` clause in the query, at any level, refers to a CTE of this name. -/
def Query.RefersTo (name : String) (q : Query) : Prop :=
  ∃ r ∈ q.subqueries, ∃ n ∈ r.body.references, n.RefersTo name

/-- A `FROM` clause of the body, or of a query inside it, refers to a CTE of this name. -/
def Body.RefersTo (name : String) (b : Body) : Prop :=
  (∃ n ∈ b.references, n.RefersTo name) ∨ ∃ q ∈ b.queries, q.RefersTo name

theorem Query.refersTo_of_body {name : String} {q : Query} (h : q.body.RefersTo name) :
    q.RefersTo name := by
  rcases h with ⟨n, hn, href⟩ | ⟨r, hr, s, hs, n, hn, href⟩
  · exact ⟨q, q.mem_subqueries_self, n, hn, href⟩
  · exact ⟨s, mem_subqueries_of_inner (List.mem_append_right _ hr) hs, n, hn, href⟩

/-- The second context is the first one but for the columns kept of CTEs, and for what the
CTE `name` shows to itself. -/
structure Context.AlikeBut (name : String) (c c' : Context) : Prop where
  scopes : c'.scopes = c.scopes
  bindings : c'.bindings = c.bindings
  statement : c'.statement = c.statement
  depth : c'.depth = c.depth
  findCte? : ∀ n, c'.findCte? n = c.findCte? n
  ctesInProgress : c'.ctesInProgress = c.ctesInProgress
  cteAnchor? : ∀ n, Text.same n name = false → c'.cteAnchor? n = c.cteAnchor? n

namespace Context.AlikeBut

variable {name : String} {c c' c₁ : Context}

theorem withCache (name : String) (c : Context) (cache : CteCache) :
    AlikeBut name c (c.withCache cache) :=
  ⟨rfl, rfl, rfl, rfl, fun _ => rfl, rfl, fun _ _ => rfl⟩

theorem pushScope (h : c.AlikeBut name c') : AlikeBut name c.pushScope c'.pushScope :=
  ⟨congrArg (List.cons ({} : Scope)) h.scopes, h.bindings, h.statement, h.depth, h.findCte?,
    h.ctesInProgress, h.cteAnchor?⟩

theorem pushCtes (h : c.AlikeBut name c') (ctes : List Cte) :
    AlikeBut name (c.pushCtes ctes) (c'.pushCtes ctes) := by
  refine ⟨h.scopes, h.bindings, h.statement, h.depth, fun n => ?_, h.ctesInProgress, h.cteAnchor?⟩
  rw [findCte?_pushCtes, findCte?_pushCtes, h.findCte? n]

theorem deeper (h : c.AlikeBut name c') :
    AlikeBut name { c with depth := c.depth + 1 } { c' with depth := c'.depth + 1 } :=
  ⟨h.scopes, h.bindings, h.statement, congrArg (· + 1) h.depth, h.findCte?,
    h.ctesInProgress, h.cteAnchor?⟩

/-- What the CTE shows to itself may be replaced, under one more `WITH`
clause that defines nothing. -/
theorem setCteAnchor (name : String) (c : Context) (cache : CteCache) (m : ColumnMap) :
    AlikeBut name c (((c.withCache cache).setCteAnchor name m).pushCtes []) :=
  ⟨rfl, rfl, rfl, rfl, fun _ => rfl, rfl, fun _ hn =>
    cteAnchor?_setCteAnchor hn m (c.withCache cache)⟩

end Context.AlikeBut

namespace Analysis

open Context

/-- Besides what `Replays` says, the second action has the same answer, and leaves the same scopes,
where in addition the CTE `name` shows other columns to itself. -/
def Recalls (name : String) (env : Env) ⦃α : Type⦄ (x y : Analysis α) : Prop :=
  Replays env x y ∧ ∀ c a c₁, c.Anchored → x.outcome env c = (.ok a, c₁) →
    ∀ c', c.AlikeBut name c' →
    c₁.GrowsTo c'.cteCache → y.outcome env c' = (.ok a, { c' with scopes := c₁.scopes })

namespace Recalls

variable {name : String} {env : Env} {α β : Type} {x y : Analysis α}

private theorem of_outcome (a : Context → α) (scopes : Context → ScopeStack)
    (hx : ∀ c, x.outcome env c = (.ok (a c), { c with scopes := scopes c }))
    (ha : ∀ c c' : Context, c.AlikeBut name c' → a c' = a c ∧ scopes c' = scopes c) :
    Recalls name env x x := by
  have hreplay : Replays env x x :=
    .of_outcome a scopes hx (fun c cache => (ha c _ (.withCache name c cache)).1) fun c cache =>
      (ha c _ (.withCache name c cache)).2
  refine ⟨hreplay, fun c b c₁ _ hb c' halike _ => ?_⟩
  cases (hx c).symm.trans hb
  obtain ⟨hvalue, hscopes⟩ := ha c c' halike
  rw [hx, hvalue, hscopes]

private theorem bind {f g : α → Analysis β} (hx : Recalls name env x y)
    (hf : ∀ a, Recalls name env (f a) (g a)) :
    Recalls name env (x >>= f) (y >>= g) := by
  refine ⟨(Replays.congruence env).bind hx.1 fun a =>
    (hf a).1, fun c b c₂ hanchored h c' halike hcache => ?_⟩
  obtain ⟨a, c₁, hxa, hfb⟩ := outcome_bind_eq_ok.1 h
  obtain ⟨hkept₁, -, -⟩ := hx.1 c a c₁ hanchored hxa
  obtain ⟨hkept₂, hgrows₂, -⟩ := (hf a).1 c₁ b c₂ hkept₁.anchored hfb
  have hcache₁ := hgrows₂.trans hkept₂.statement hkept₂.ctesInProgress hcache
  have halike₁ : c₁.AlikeBut name { c' with scopes := c₁.scopes } := by
    refine ⟨rfl, halike.bindings.trans hkept₁.bindings.symm,
      halike.statement.trans hkept₁.statement.symm,
      halike.depth.trans hkept₁.depth.symm, fun n => ?_,
      halike.ctesInProgress.trans hkept₁.ctesInProgress.symm, fun n hn => ?_⟩
    · have hframes : c₁.findCte? n = c.findCte? n := by
        rw [Context.findCte?, hkept₁.cteFrames, Context.findCte?]
      exact (halike.findCte? n).trans hframes.symm
    · have hanchors : c₁.cteAnchor? n = c.cteAnchor? n := by
        rw [Context.cteAnchor?, ← hkept₁.anchors, Context.cteAnchor?]
      exact (halike.cteAnchor? n hn).trans hanchors.symm
  rw [outcome_bind_of_ok (hx.2 c a c₁ hanchored hxa c' halike hcache₁)]
  exact (hf a).2 c₁ b c₂ hkept₁.anchored hfb _ halike₁ hcache

private theorem congruence (name : String) (env : Env) : Congruence (Recalls name env) where
  pure a := of_outcome (fun _ => a) (·.scopes) (fun _ => rfl) fun _ _ h => ⟨rfl, h.scopes⟩
  bind := bind
  catalog hf _ := hf env.catalog
  defaultSchema :=
    of_outcome (fun _ => env.config.defaultSchema) (·.scopes) (fun _ => rfl) fun _ _ h =>
      ⟨rfl, h.scopes⟩
  bindings := of_outcome (·.bindings) (·.scopes) (fun _ => rfl) fun _ _ h => ⟨h.bindings, h.scopes⟩
  lookup _ := of_outcome _ _ (outcome_fromScopes env · _) fun _ _ h => by
    simp only [h.scopes, and_self]
  expand _ := of_outcome _ _ (outcome_fromScopes env · _) fun _ _ h => by
    simp only [h.scopes, and_self]

private theorem inScope (hx : Recalls name env x y) : Recalls name env (inScope x) (inScope y) := by
  refine ⟨(Replays.layers env).inScope hx.1, fun c a c₁ hanchored h c' halike hcache => ?_⟩
  obtain ⟨c₂, hxa, rfl⟩ := outcome_between_eq_ok.1 h
  exact outcome_between_eq_ok.2
    ⟨_, hx.2 c.pushScope a c₂ hanchored hxa c'.pushScope halike.pushScope hcache, rfl⟩

private theorem layers (name : String) (env : Env) :
    Layers (AlikeBut name) (Recalls name env) (Recalls name env) where
  toInner := congruence name env
  toOuter := congruence name env
  innermost h := congrArg ScopeStack.innermost h.scopes
  get hf := by
    refine ⟨(Replays.layers env).get ?_, fun c a c₁ hanchored h c' halike =>
      (hf c c' halike).2 c a c₁ hanchored h c' halike⟩
    rintro c _ ⟨cache, rfl⟩
    exact (hf c _ (.withCache name c cache)).1
  addEntry e names :=
    of_outcome (fun _ => ()) (fun c => c.scopes.add e names) (fun _ => rfl) fun _ _ h =>
      ⟨rfl, by rw [h.scopes]⟩
  markSide isNullable side := by
    cases isNullable
    · exact (congruence name env).pure ()
    · exact of_outcome (fun _ => ()) (fun c => c.scopes.markNullable side.1 side.2)
        (fun _ => rfl) fun _ _ h =>
        ⟨rfl, by rw [h.scopes]⟩
  ofOuter hx := hx
  inScope := inScope

private theorem withCtes (ctes : List Cte) (hx : Recalls name env x y) :
    Recalls name env (withCtes ctes x) (withCtes ctes y) := by
  refine ⟨Replays.withCtes ctes hx.1, fun c a c₁ hanchored h c' halike hcache => ?_⟩
  obtain ⟨c₂, hxa, rfl⟩ := outcome_between_eq_ok.1 h
  have hagain :=
    hx.2 (c.pushCtes ctes) a c₂ hanchored hxa (c'.pushCtes ctes) (halike.pushCtes ctes) hcache
  exact outcome_between_eq_ok.2 ⟨_, hagain, rfl⟩

private theorem opening (hx : Recalls name env x y) : Recalls name env (opening x) (opening y) := by
  refine ⟨Replays.opening hx.1, fun c a c₁ hanchored h c' halike hcache => ?_⟩
  obtain ⟨hdepth, c₂, hxa, rfl⟩ := outcome_opening_eq_ok.1 h
  have hagain := hx.2 { c with depth := c.depth + 1 } a c₂ hanchored hxa
    { c' with depth := c'.depth + 1 } halike.deeper hcache
  exact outcome_opening_eq_ok.2 ⟨halike.depth ▸ hdepth, _, hagain, rfl⟩

/-- The columns of a CTE of another name are found again: none are computed the second time. -/
private theorem cteColumns {k : Nat} {cte : Cte} (hn : Text.same cte.name name = false) :
    Recalls name env (cteColumns (Nested.within k) cte) (cteColumns (Nested.within k) cte) := by
  refine ⟨.columns env k cte, fun c m c₁ hanchored h c' halike hcache => ?_⟩
  obtain ⟨hkept, -, -⟩ := Replays.columns env k cte c m c₁ hanchored h
  have hcached (hm : c₁.cachedCte? cte.name = some m) : c'.cachedCte? cte.name = some m := by
    rw [cachedCte?, hkept.statement] at hm
    rw [cachedCte?, halike.statement]
    exact hcache.kept hm
  have hsame (hs : c₁.scopes = c.scopes) : c' = { c' with scopes := c₁.scopes } := by
    rw [hs, ← halike.scopes]
  rcases outcome_cteColumns_eq_ok.1
    h with ⟨hm, rfl⟩ | ⟨hnone, hp, hm, rfl⟩ | ⟨hnone, hp, c₂, hm, rfl⟩
  · exact outcome_cteColumns_eq_ok.2 (.inl ⟨hcached hm, hsame rfl⟩)
  · refine outcome_cteColumns_eq_ok.2 (.inr (.inl ⟨?_, ?_, ?_, hsame rfl⟩))
    · rw [cachedCte?, halike.statement]
      exact (hcache.inProgress _ (List.contains_iff_mem.1 hp)).trans hnone
    · rwa [isCteInProgress, halike.ctesInProgress]
    · rwa [halike.cteAnchor? _ hn]
  · have hwithin := Replays.within env k cte.query
    obtain ⟨hm, -⟩ := Replays.of_computed hwithin.1 hwithin.2 hanchored hnone hp hm
    exact outcome_cteColumns_eq_ok.2 (.inl ⟨hcached hm, hsame rfl⟩)

private theorem ctesRelated (name : String) (env : Env) (k : Nat) :
    CtesRelated (AlikeBut name) (fun n => ¬ n.RefersTo name) (Recalls name env) (Nested.within k)
      (Nested.within k) := by
  intro c c' n hlocal hn halike
  unfold Context.cteNamed?
  split
  · rename_i hpart
    rw [Bool.and_eq_true, Option.isNone_iff_eq_none, Option.isNone_iff_eq_none] at hpart
    refine ⟨halike.findCte? n.name, fun cte hcte => cteColumns ?_⟩
    have hsame := same_of_findCte? hcte
    have hother : Text.same n.name name = false := by
      by_contra hs
      exact hn ⟨hlocal, hpart.1, hpart.2, by simpa using hs⟩
    rw [← hother, Text.same, Text.same, Text.same_iff.1 hsame]
  · exact ⟨rfl, fun cte hcte => by cases hcte⟩

private theorem project {k : Nat}
    (h : ∀ q : Query, ¬ q.RefersTo name →
      Recalls name env ((Nested.within k).query q) ((Nested.within k).query q))
    {b : Body} (hb : ¬ b.RefersTo name) :
    Recalls name env (b.project (Nested.within k)) (b.project (Nested.within k)) :=
  (layers name env).body (ctesRelated name env k) b
    (fun n hn href => hb (.inl ⟨n, hn, href⟩)) fun q hq =>
    h q fun href => hb (.inr ⟨q, hq, href⟩)

private theorem within (env : Env) (k : Nat) (q : Query) (hq : ¬ q.RefersTo name) :
    Recalls name env ((Nested.within k).query q) ((Nested.within k).query q) := by
  induction k generalizing q with
  | zero => exact ⟨(Replays.within env 0 q).1, fun _ _ _ _ h => by cases h⟩
  | succ k ih =>
    have hbody := project ih fun href => hq (Query.refersTo_of_body href)
    refine opening (bind (withCtes q.ctes hbody) fun p => ?_)
    exact of_outcome (fun _ => q.resultOf env.config p) (·.scopes) (fun _ => rfl) fun _ _ h =>
      ⟨rfl, h.scopes⟩

/-- A body that does not refer to the CTE projects the same again. -/
theorem body (env : Env) (k : Nat) {b : Body} (hb : ¬ b.RefersTo name) :
    Recalls name env (b.project (Nested.within k)) (b.project (Nested.within k)) :=
  project (within env k) hb

end Recalls

end Analysis

end ResultShape
