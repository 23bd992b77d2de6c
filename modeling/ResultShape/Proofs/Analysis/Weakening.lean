import ResultShape.Proofs.Analysis.Limit
import ResultShape.Proofs.Analysis.Success
import ResultShape.Proofs.Scope.Padding
import ResultShape.Proofs.Sql.Definitions
/-! Weakening: a query comes to the same where there is more around it that it cannot see:
scopes without entries, a CTE of a name that it does not refer to, and more open queries under a
limit that allows as many more. -/
namespace ResultShape

theorem ScopeStack.Padded.innermost_eq {stack stack' : ScopeStack} (h : Padded stack stack') :
    stack'.innermost = stack.innermost := by cases h <;> rfl

namespace Context

/-- The second context is the first one with more around it: scopes without entries, `more`
open queries, and whatever there is to a CTE called `name`. No CTE of the first context under
another name refers to that one. -/
structure Around (name : String) (more : Nat) (c c' : Context) : Prop where
  scopes : c.scopes.Padded c'.scopes
  bindings : c'.bindings = c.bindings
  statement : c'.statement = c.statement
  depth : c'.depth = c.depth + more
  findCte? : ∀ n, Text.same n name = false → c'.findCte? n = c.findCte? n
  avoids : ∀ n cte, Text.same n name = false → c.findCte? n = some cte → cte.query.Avoids name
  cachedCte? : ∀ n, Text.same n name = false → c'.cachedCte? n = c.cachedCte? n
  cteAnchor? : ∀ n, Text.same n name = false → c'.cteAnchor? n = c.cteAnchor? n
  isCteInProgress : ∀ n, Text.same n name = false → c'.isCteInProgress n = c.isCteInProgress n

/-- As many queries are open, under the same `WITH` clauses. -/
structure SamePlace (c c₁ : Context) : Prop where
  depth : c₁.depth = c.depth
  cteFrames : c₁.cteFrames = c.cteFrames

theorem SamePlace.refl (c : Context) : c.SamePlace c := ⟨rfl, rfl⟩

theorem SamePlace.trans {c c₁ c₂ : Context} (h₁ : c.SamePlace c₁) (h₂ : c₁.SamePlace c₂) :
    c.SamePlace c₂ :=
  ⟨h₂.depth.trans h₁.depth, h₂.cteFrames.trans h₁.cteFrames⟩

namespace Around

variable {name : String} {more : Nat} {c c' c₁ c₁' : Context}

theorem with_scopes (h : c.Around name more c') {stack stack' : ScopeStack}
    (hs : stack.Padded stack') :
    Around name more { c with scopes := stack } { c' with scopes := stack' } :=
  ⟨hs, h.bindings, h.statement, h.depth, h.findCte?, h.avoids, h.cachedCte?, h.cteAnchor?,
    h.isCteInProgress⟩

theorem deeper (h : c.Around name more c') :
    Around name more { c with depth := c.depth + 1 } { c' with depth := c'.depth + 1 } :=
  ⟨h.scopes, h.bindings, h.statement, by simp only [h.depth]; omega, h.findCte?, h.avoids,
    h.cachedCte?, h.cteAnchor?, h.isCteInProgress⟩

theorem leave (h : c.Around name more c') (hd : c.depth ≠ 0) : Around name more c.leave c'.leave :=
  ⟨h.scopes, h.bindings, h.statement, by simp only [Context.leave, h.depth]; omega, h.findCte?,
    h.avoids, h.cachedCte?, h.cteAnchor?, h.isCteInProgress⟩

theorem pushCtes {ctes : List Cte} (h : c.Around name more c')
    (ha : ∀ cte ∈ ctes, cte.query.Avoids name) :
    Around name more (c.pushCtes ctes) (c'.pushCtes ctes) := by
  refine ⟨h.scopes, h.bindings, h.statement, h.depth, fun n hn => ?_,
    fun n cte hn hf => ?_, h.cachedCte?, h.cteAnchor?, h.isCteInProgress⟩
  · rw [findCte?_pushCtes, findCte?_pushCtes, h.findCte? n hn]
  · rw [findCte?_pushCtes, Option.or_eq_some_iff] at hf
    rcases hf with hf | ⟨-, hf⟩
    · exact ha cte (List.mem_of_find?_eq_some hf)
    · exact h.avoids n cte hn hf

theorem popCtes (h : c.Around name more c') (h₁ : c₁.Around name more c₁')
    (hf : c₁.popCtes.cteFrames = c.cteFrames)
    (hf' : c₁'.popCtes.cteFrames = c'.cteFrames) : Around name more c₁.popCtes c₁'.popCtes := by
  have hfind (n : String) : c₁.popCtes.findCte? n = c.findCte? n := by
    rw [Context.findCte?, hf, Context.findCte?]
  have hfind' (n : String) : c₁'.popCtes.findCte? n = c'.findCte? n := by
    rw [Context.findCte?, hf', Context.findCte?]
  refine ⟨h₁.scopes, h₁.bindings, h₁.statement, h₁.depth, fun n hn => ?_,
    fun n cte hn hc => ?_, h₁.cachedCte?, h₁.cteAnchor?, h₁.isCteInProgress⟩
  · rw [hfind, hfind', h.findCte? n hn]
  · exact h.avoids n cte hn ((hfind n).symm.trans hc)

theorem setCteAnchor (h : c.Around name more c') (n : String) (m : ColumnMap) :
    Around name more (c.setCteAnchor n m) (c'.setCteAnchor n m) := by
  refine ⟨h.scopes, h.bindings, h.statement, h.depth, h.findCte?, h.avoids, h.cachedCte?,
    fun n' hn => ?_, h.isCteInProgress⟩
  simp only [Context.cteAnchor?, Context.setCteAnchor, Keyed.get?_insert]
  split
  · rfl
  · exact h.cteAnchor? n' hn

/-- A `WITH` clause that defines nothing may be around. -/
theorem pushCtes_nil (h : c.Around name more c') : Around name more c (c'.pushCtes []) :=
  ⟨h.scopes, h.bindings, h.statement, h.depth, h.findCte?, h.avoids, h.cachedCte?, h.cteAnchor?,
    h.isCteInProgress⟩

/-- What the CTE shows to itself is never seen. -/
theorem setCteAnchor_self (h : c.Around name more c') (m : ColumnMap) :
    Around name more c (c'.setCteAnchor name m) := by
  exact ⟨h.scopes, h.bindings, h.statement, h.depth, h.findCte?, h.avoids, h.cachedCte?,
    fun n hn => (cteAnchor?_setCteAnchor hn m c').trans (h.cteAnchor? n hn), h.isCteInProgress⟩

theorem computing (h : c.Around name more c') {n : String} (hp : c.isCteInProgress n = false)
    (hp' : c'.isCteInProgress n = false) : Around name more (c.computing n) (c'.computing n) := by
  rw [computing_eq hp, computing_eq hp']
  refine ⟨.nil, h.bindings, h.statement, h.depth, h.findCte?, h.avoids, h.cachedCte?, h.cteAnchor?,
    fun n' hn => ?_⟩
  have hin := h.isCteInProgress n' hn
  simp only [Context.isCteInProgress, List.contains_cons] at hin ⊢
  rw [hin]

theorem computed (h : c.Around name more c') (h₁ : c₁.Around name more c₁') (n : String)
    (m : ColumnMap) :
    Around name more (c.computed n m c₁) (c'.computed n m c₁') := by
  refine ⟨h.scopes, h₁.bindings, h₁.statement, h₁.depth, h₁.findCte?, h₁.avoids,
    fun n' hn => ?_, fun n' hn => ?_, fun n' hn => ?_⟩
  · have hcached := h₁.cachedCte? n' hn
    simp only [Context.cachedCte?, Context.computed, Context.cacheCte, Context.endCte,
      Keyed.get?_insert, h₁.statement] at hcached ⊢
    rw [hcached]
  · have hanchor := h₁.cteAnchor? n' hn
    simp only [Context.cteAnchor?, Context.computed, Context.cacheCte, Context.endCte,
      Keyed.get?_erase] at hanchor ⊢
    rw [hanchor]
  · have hin := h₁.isCteInProgress n' hn
    rw [Bool.eq_iff_iff] at hin ⊢
    simp only [Context.isCteInProgress, Context.computed, Context.cacheCte, Context.endCte,
      List.contains_iff_mem, List.mem_filter] at hin ⊢
    rw [hin]

end Around

end Context

namespace Analysis

open Context

/-- Whatever the first action comes to, the second one comes to it where there is more around and as
many more queries may be opened. -/
def Weakens (name : String) (more : Nat) (env : Env) ⦃α : Type⦄ (x y : Analysis α) : Prop :=
  ∀ c c' : Context, c.Around name more c' → ∀ a c₁, x.outcome env c = (.ok a, c₁) →
    ∃ c₁', y.outcome (env.limited (env.config.maxNestingDepth + more)) c' = (.ok a, c₁') ∧
      c₁.Around name more c₁' ∧ c.SamePlace c₁ ∧ c'.SamePlace c₁'

namespace Weakens

variable {name : String} {more : Nat} {env : Env} {α β : Type} {x y : Analysis α}

private theorem of_scopes (a : Env → Context → α) (scopes : Env → Context → ScopeStack)
    (hx : ∀ env c, x.outcome env c = (.ok (a env c), { c with scopes := scopes env c }))
    (ha : ∀ c c' : Context, c.Around name more c' →
      a (env.limited (env.config.maxNestingDepth + more)) c' = a env c ∧
        (scopes env c).Padded (scopes (env.limited (env.config.maxNestingDepth + more)) c')) :
    Weakens name more env x x := by
  intro c c' h b c₁ hb
  cases (hx env c).symm.trans hb
  obtain ⟨hsame, hscopes⟩ := ha c c' h
  rw [hx, hsame]
  exact ⟨_, rfl, h.with_scopes hscopes, ⟨rfl, rfl⟩, ⟨rfl, rfl⟩⟩

private theorem bind {f g : α → Analysis β} (hx : Weakens name more env x y)
    (hf : ∀ a, Weakens name more env (f a) (g a)) : Weakens name more env (x >>= f) (y >>= g) := by
  intro c c' h b c₂ hb
  obtain ⟨a, c₁, hxa, hb⟩ := outcome_bind_eq_ok.1 hb
  obtain ⟨c₁', hya, h₁, hplace₁, hplace₁'⟩ := hx c c' h a c₁ hxa
  obtain ⟨c₂', hgb, h₂, hplace₂, hplace₂'⟩ := hf a c₁ c₁' h₁ b c₂ hb
  rw [outcome_bind_of_ok hya]
  exact ⟨c₂', hgb, h₂, hplace₁.trans hplace₂, hplace₁'.trans hplace₂'⟩

private theorem congruence (name : String) (more : Nat) (env : Env) :
    Congruence (Weakens name more env) where
  pure a := of_scopes (fun _ _ => a) (fun _ => Context.scopes) (fun _ _ => rfl) fun _ _ h =>
    ⟨rfl, h.scopes⟩
  bind := bind
  catalog hf _ :=
    bind (of_scopes (fun env _ => env.catalog) (fun _ => Context.scopes) (fun _ _ => rfl)
      fun _ _ h => ⟨rfl, h.scopes⟩) hf
  defaultSchema :=
    of_scopes (fun env _ => env.config.defaultSchema) (fun _ => Context.scopes)
      (fun _ _ => rfl) fun _ _ h =>
      ⟨rfl, h.scopes⟩
  bindings :=
    of_scopes (fun _ => Context.bindings) (fun _ => Context.scopes) (fun _ _ => rfl) fun _ _ h =>
      ⟨h.bindings, h.scopes⟩
  lookup ref := of_scopes _ _ (fun env c => outcome_fromScopes env c _) fun _ _ h =>
    h.scopes.lookup ref
  expand qualifier := of_scopes _ _ (fun env c => outcome_fromScopes env c _) fun _ _ h =>
    h.scopes.expand qualifier

private theorem inScope (hx : Weakens name more env x y) :
    Weakens name more env (inScope x) (inScope y) := by
  intro c c' h a c₁ ha
  obtain ⟨c₂, hxa, rfl⟩ := outcome_between_eq_ok.1 ha
  obtain ⟨c₂', hya, h₂, hplace, hplace'⟩ :=
    hx c.pushScope c'.pushScope (h.with_scopes (h.scopes.cons _)) a c₂ hxa
  refine ⟨c₂'.popScope, outcome_between_eq_ok.2 ⟨c₂', hya, rfl⟩,
    h₂.with_scopes h₂.scopes.tail, ?_, ?_⟩
  · exact ⟨hplace.depth, hplace.cteFrames⟩
  · exact ⟨hplace'.depth, hplace'.cteFrames⟩

private theorem withCtes {ctes : List Cte} (ha : ∀ cte ∈ ctes, cte.query.Avoids name)
    (hx : Weakens name more env x y) : Weakens name more env (withCtes ctes x)
    (withCtes ctes y) := by
  intro c c' h a c₁ hc
  obtain ⟨c₂, hxa, rfl⟩ := outcome_between_eq_ok.1 hc
  obtain ⟨c₂', hya, h₂, hplace, hplace'⟩ := hx _ _ (h.pushCtes ha) a c₂ hxa
  have hf : c₂.popCtes.cteFrames = c.cteFrames := congrArg List.tail hplace.cteFrames
  have hf' : c₂'.popCtes.cteFrames = c'.cteFrames := congrArg List.tail hplace'.cteFrames
  exact ⟨c₂'.popCtes, outcome_between_eq_ok.2 ⟨c₂', hya, rfl⟩, h.popCtes h₂ hf hf',
    ⟨hplace.depth, hf⟩, ⟨hplace'.depth, hf'⟩⟩

private theorem opening (hx : Weakens name more env x y) :
    Weakens name more env (opening x) (opening y) := by
  intro c c' h a c₁ hc
  obtain ⟨hd, c₂, hxa, rfl⟩ := outcome_opening_eq_ok.1 hc
  obtain ⟨c₂', hya, h₂, hplace, hplace'⟩ := hx _ _ h.deeper a c₂ hxa
  have hd' : c'.depth < env.config.maxNestingDepth + more := by
    rw [h.depth]
    omega
  have hnz : c₂.depth ≠ 0 := by simp [hplace.depth]
  refine ⟨c₂'.leave, outcome_opening_eq_ok.2 ⟨hd', c₂', hya, rfl⟩, h₂.leave hnz, ?_, ?_⟩
  · exact ⟨congrArg (· - 1) hplace.depth, hplace.cteFrames⟩
  · exact ⟨congrArg (· - 1) hplace'.depth, hplace'.cteFrames⟩

private theorem layers (name : String) (more : Nat) (env : Env) :
    Layers (Around name more) (Weakens name more env) (Weakens name more env) where
  toInner := congruence name more env
  toOuter := congruence name more env
  innermost h := h.scopes.innermost_eq
  get hf := fun c c' h => hf c c' h c c' h
  addEntry e names :=
    of_scopes (fun _ _ => ()) (fun _ c => c.scopes.add e names) (fun _ _ => rfl) fun _ _ h =>
      ⟨rfl, h.scopes.add e names⟩
  markSide isNullable side := by
    cases isNullable
    · exact (congruence name more env).pure ()
    · exact of_scopes (fun _ _ => ()) (fun _ c => c.scopes.markNullable side.1 side.2)
        (fun _ _ => rfl) fun _ _ h =>
        ⟨rfl, h.scopes.markNullable side.1 side.2⟩
  ofOuter hx := hx
  inScope := inScope

/-- The columns of a CTE of another name are found alike if its query is resolved alike. -/
private theorem cteColumns {n : Nested} {cte : Cte} (hn : Text.same cte.name name = false)
    (hq : Weakens name more env (n.query cte.query) (n.query cte.query))
    (ha : Weakens name more env (n.anchor cte.query) (n.anchor cte.query)) :
    Weakens name more env (cteColumns n cte) (cteColumns n cte) := by
  intro c c' h m c₁ hm
  have hcached := h.cachedCte? cte.name hn
  have hin := h.isCteInProgress cte.name hn
  rcases outcome_cteColumns_eq_ok.1
    hm with ⟨hc, rfl⟩ | ⟨hc, hp, hanchor, rfl⟩ | ⟨hc, hp, c₂, hcomputed, rfl⟩
  · rw [← hcached] at hc
    exact ⟨c', outcome_cteColumns_eq_ok.2 (.inl ⟨hc, rfl⟩), h, .refl c, .refl c'⟩
  · rw [← hcached] at hc
    rw [← hin] at hp
    rw [← h.cteAnchor? cte.name hn] at hanchor
    exact ⟨c', outcome_cteColumns_eq_ok.2 (.inr (.inl ⟨hc, hp, hanchor, rfl⟩)), h,
      .refl c, .refl c'⟩
  · rw [← hcached] at hc
    have hp' := hin.trans hp
    have hcompute : Weakens name more env (computeCte n cte) (computeCte n cte) :=
      (congruence name more env).computeCte (fun columns => ?_) ha hq
    · obtain ⟨c₂', hcomputed', h₂, hplace, hplace'⟩ :=
        hcompute _ _ (h.computing hp hp') m c₂ hcomputed
      rw [computing_eq hp] at hplace
      rw [computing_eq hp'] at hplace'
      have hcolumns := outcome_cteColumns_eq_ok.2 (.inr (.inr ⟨hc, hp', c₂', hcomputed', rfl⟩))
      refine ⟨_, hcolumns, h.computed h₂ cte.name m, ?_, ?_⟩
      · exact ⟨hplace.depth, hplace.cteFrames⟩
      · exact ⟨hplace'.depth, hplace'.cteFrames⟩
    · intro c c' h a c₁ ha
      cases ha
      exact ⟨_, rfl, h.setCteAnchor cte.name columns, ⟨rfl, rfl⟩, ⟨rfl, rfl⟩⟩

/-- A name other than that of the CTE means the same, with the same columns,
where there is more around. -/
private theorem ctesRelated {n : Nested}
    (hn : ∀ q : Query, q.Avoids name → Weakens name more env (n.query q) (n.query q) ∧
      Weakens name more env (n.anchor q) (n.anchor q)) :
    CtesRelated (Around name more) (fun n => Text.same n.name name = false)
      (Weakens name more env) n n := by
  intro c c' m _ hm h
  unfold Context.cteNamed?
  split
  · refine ⟨h.findCte? m.name hm, fun cte hcte => ?_⟩
    -- It is the folded name of the definition that is not the other one.
    have hsame := same_of_findCte? hcte
    have hname : Text.same cte.name name = false := by
      rw [← hm, Text.same, Text.same, Text.same_iff.1 hsame]
    have hq := hn cte.query (h.avoids m.name cte hm hcte)
    exact cteColumns hname hq.1 hq.2
  · exact ⟨rfl, fun cte hcte => by cases hcte⟩

private theorem project {n : Nested}
    (hn : ∀ q : Query, q.Avoids name → Weakens name more env (n.query q) (n.query q) ∧
      Weakens name more env (n.anchor q) (n.anchor q))
    {b : Body} (hr : ∀ n ∈ b.references, Text.same n.name name = false)
    (hq : ∀ q ∈ b.queries, q.Avoids name) :
    Weakens name more env (b.project n) (b.project n) :=
  (layers name more env).body (ctesRelated hn) b hr fun q hm => (hn q (hq q hm)).1

/-- A query that does not refer to a CTE comes to the same with the CTE, and more, around it. -/
theorem within (name : String) (more : Nat) (env : Env) (k : Nat) (q : Query) (h : q.Avoids name) :
    Weakens name more env ((Nested.within k).query q) ((Nested.within k).query q) ∧
      Weakens name more env ((Nested.within k).anchor q) ((Nested.within k).anchor q) := by
  induction k generalizing q with
  | zero => exact ⟨(fun _ _ _ _ _ h => by cases h), fun _ _ _ _ _ h => by cases h⟩
  | succ k ih =>
    have hbody := project ih h.references fun r hr => h.inner (List.mem_append_right _ hr)
    have hleftmost := project ih (fun n hn => h.references n (q.body.references_leftmost_subset hn))
      fun r hr => h.inner (List.mem_append_right _ (q.body.queries_leftmost_subset hr))
    have hctes : ∀ cte ∈ q.ctes, cte.query.Avoids name := fun cte hc =>
      h.inner (List.mem_append_left _ (List.mem_map_of_mem hc))
    refine ⟨opening (bind (withCtes hctes hbody) fun p => ?_),
      opening (bind hleftmost fun p => (congruence name more env).pure _)⟩
    exact of_scopes (fun env _ => q.resultOf env.config p) (fun _ => Context.scopes)
      (fun _ _ => rfl) fun _ _ h =>
      ⟨rfl, h.scopes⟩

/-- A body that does not refer to a CTE projects the same with the CTE, and more, around it. -/
theorem body {name : String} {b : Body} (hr : ∀ n ∈ b.references, Text.same n.name name = false)
    (hq : ∀ q ∈ b.queries, q.Avoids name) (more : Nat) (env : Env) (k : Nat) :
    Weakens name more env (b.project (Nested.within k)) (b.project (Nested.within k)) :=
  project (within name more env k) hr hq

end Weakens

end Analysis

end ResultShape
