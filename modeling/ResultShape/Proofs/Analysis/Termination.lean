import Mathlib.Order.Filter.AtTopBot.Basic
import Mathlib.Order.Filter.Finite
import ResultShape.Proofs.Analysis.Limit
import ResultShape.Proofs.Sql.Definitions
/-! Termination: under every limit from some one on, a query is resolved without an error, whatever
CTEs refer to one another in it. -/
namespace ResultShape

/-- Where an analysis stands: under which `WITH` clauses, while which CTEs are
computed, in how many queries. -/
structure Place where
  frames : List (List Cte)
  inProgress : List String
  depth : Nat

def Context.place (c : Context) : Place := ⟨c.cteFrames, c.ctesInProgress, c.depth⟩

namespace Place

def withCtes (ctes : List Cte) (p : Place) : Place := { p with frames := ctes :: p.frames }

def deeper (p : Place) : Place := { p with depth := p.depth + 1 }

def computing (name : String) (p : Place) : Place :=
  { p with inProgress := Text.fold name :: p.inProgress }

/-- A name in a place means a CTE of one of the clauses around it. -/
theorem mem_of_cteNamed? {c : Context} {name : Name} {cte : Cte} (h : c.cteNamed? name = some cte) :
    cte ∈ c.place.frames.flatten := by
  unfold Context.cteNamed? at h
  split at h
  · exact List.mem_of_find?_eq_some h
  · cases h

variable {c : Context} {p : Place} {name : String}

theorem isCteInProgress_eq_false_iff :
    c.isCteInProgress name = false ↔ Text.fold name ∉ c.place.inProgress := by
  simp [Context.isCteInProgress, Context.place]

theorem place_beginCte (h : Text.fold name ∉ c.place.inProgress) :
    (c.beginCte name).place = c.place.computing name := by
  simp [Context.beginCte, isCteInProgress_eq_false_iff.2 h, Context.place, computing]

/-- A CTE that was not being computed is not being computed afterwards either. -/
theorem place_endCte (h : c.place = p.computing name) (hn : Text.fold name ∉ p.inProgress) :
    (c.endCte name).place = p := by
  have hf : p.inProgress.filter (fun n => decide (n ≠ Text.fold name)) = p.inProgress := by
    refine List.filter_eq_self.2 fun n hm => decide_eq_true fun he => ?_
    subst he
    exact hn hm
  simp only [Context.place, computing, mk.injEq] at h
  simp only [Context.place, Context.endCte, h, List.filter_cons_of_neg, ne_eq,
    not_true_eq_false, decide_false, Bool.false_eq_true, not_false_eq_true]
  rw [hf]

end Place

namespace Analysis

/-- In a place the action ends without an error, and it leaves the analysis in that place. -/
def SucceedsAt (env : Env) (p : Place) ⦃α : Type⦄ (x : Analysis α) : Prop :=
  ∀ c, c.place = p → ∃ a c', x.outcome env c = (.ok a, c') ∧ c'.place = p

namespace SucceedsAt

variable {env : Env} {p : Place} {α β : Type} {x : Analysis α}

private theorem of_outcome (a : Context → α) (change : Context → Context)
    (hx : ∀ c, x.outcome env c = (.ok (a c), change c)) (hp : ∀ c, (change c).place = c.place) :
    SucceedsAt env p x := fun c h => ⟨a c, change c, hx c, (hp c).trans h⟩

private theorem modify (change : Context → Context) (hp : ∀ c, (change c).place = c.place) :
    SucceedsAt env p (MonadStateOf.modifyGet fun c => ((), change c) : Analysis PUnit) :=
  of_outcome (fun _ => ()) change (fun _ => rfl) hp

private theorem fromScopes (ask : Catalog → ScopeStack → α × ScopeStack) :
    SucceedsAt env p (fromScopes ask) :=
  of_outcome (fun c => (ask env.catalog c.scopes).1)
    (fun c => { c with scopes := (ask env.catalog c.scopes).2 })
    (outcome_fromScopes env · ask) fun _ => rfl

theorem bind {f : α → Analysis β} (hx : SucceedsAt env p x) (hf : ∀ a, SucceedsAt env p (f a)) :
    SucceedsAt env p (x >>= f) := by
  intro c hc
  obtain ⟨a, c₁, hx, hc₁⟩ := hx c hc
  rw [outcome_bind_of_ok hx]
  exact hf a c₁ hc₁

theorem congruence (env : Env) (p : Place) : Congruence fun _ x _ => SucceedsAt env p x where
  pure a := of_outcome (fun _ => a) id (fun _ => rfl) fun _ => rfl
  bind := bind
  catalog hf _ := hf env.catalog
  defaultSchema := of_outcome (fun _ => env.config.defaultSchema) id (fun _ => rfl) fun _ => rfl
  bindings := of_outcome (·.bindings) id (fun _ => rfl) fun _ => rfl
  lookup _ := fromScopes _
  expand _ := fromScopes _

theorem get {f : Context → Analysis β} (hf : ∀ c, c.place = p → SucceedsAt env p (f c)) :
    SucceedsAt env p (MonadState.get >>= f) := by
  intro c hc
  rw [outcome_bind_of_ok (outcome_get _ c)]
  exact hf c hc c hc

/-- Both changes around an action lead from place to place. -/
theorem between {before after : Context → Context} {inside : Place} (hx : SucceedsAt env inside x)
    (hb : ∀ c, c.place = p → (before c).place = inside)
    (ha : ∀ c, c.place = inside → (after c).place = p) :
    SucceedsAt env p (between before after x) := by
  intro c hc
  obtain ⟨a, c', hx, hc'⟩ := hx (before c) (hb c hc)
  rw [outcome_between, hx]
  exact ⟨a, after c', rfl, ha c' hc'⟩

theorem inScope (hx : SucceedsAt env p x) : SucceedsAt env p (inScope x) :=
  between hx (fun _ h => h) fun _ h => h

theorem withCtes {ctes : List Cte} (hx : SucceedsAt env (p.withCtes ctes) x) :
    SucceedsAt env p (withCtes ctes x) := by
  refine between hx (fun c h => ?_) fun c h => ?_
  · subst h
    rfl
  · simp only [Context.place, Place.withCtes, Place.mk.injEq] at h
    simp [Context.place, Context.popCtes, h]

theorem computingCte {name : String} (hn : Text.fold name ∉ p.inProgress)
    (hx : SucceedsAt env (p.computing name) x) :
    SucceedsAt env p (computingCte name x) := by
  refine get fun outer _ => between hx (fun c h => ?_) fun c h => ?_
  · subst h
    exact Place.place_beginCte hn
  · exact Place.place_endCte h hn

theorem opening (hd : p.depth < env.config.maxNestingDepth) (hx : SucceedsAt env p.deeper x) :
    SucceedsAt env p (opening x) := by
  intro c hc
  have hd' : c.depth < env.config.maxNestingDepth := by rwa [← hc] at hd
  rw [outcome_opening, if_pos hd']
  refine between hx (fun c h => ?_) (fun c h => ?_) c hc
  · subst h
    rfl
  · simp only [Context.place, Place.deeper, Place.mk.injEq] at h
    simp [Context.place, Context.leave, h]

theorem layers (env : Env) (p : Place) :
    Layers (Both fun c => c.place = p) (fun _ x _ => SucceedsAt env p x) fun _ x _ =>
      SucceedsAt env p x where
  toInner := congruence env p
  toOuter := congruence env p
  innermost := Both.innermost_eq
  get hf := get fun c hc => hf c c ⟨rfl, hc⟩
  addEntry e names := modify (fun c => { c with scopes := c.scopes.add e names }) fun _ => rfl
  markSide isNullable side := by
    cases isNullable
    · exact (congruence env p).pure _
    · exact modify (fun c => { c with scopes := c.scopes.markNullable side.1 side.2 }) fun _ => rfl
  ofOuter hx := hx
  inScope := inScope

theorem computeCte {n : Nested} {cte : Cte} (ha : SucceedsAt env p (n.anchor cte.query))
    (hq : SucceedsAt env p (n.query cte.query)) : SucceedsAt env p (computeCte n cte) :=
  (congruence env p).computeCte (n := n) (m := n)
  (fun columns => modify (.setCteAnchor cte.name columns) fun _ => rfl)
    ha hq

/-- The columns of the CTEs around a place are found if those that are not being
computed can be computed there. -/
theorem ctesRelated {n : Nested} (hc : ∀ cte ∈ p.frames.flatten, Text.fold cte.name ∉ p.inProgress →
    SucceedsAt env (p.computing cte.name) (n.query cte.query) ∧
      SucceedsAt env (p.computing cte.name) (n.anchor cte.query)) :
    CtesRelated (Both fun c => c.place = p) (fun _ => True)
      (fun _ x _ => SucceedsAt env p x) n n := by
  refine (layers env p).ctesRelated
    (fun name columns => modify (.cacheCte name columns) fun _ => rfl) ?_
  intro c c' name cte h hname h' hi
  have hm : cte ∈ p.frames.flatten := h ▸ Place.mem_of_cteNamed? hname
  have hi' : Text.fold cte.name ∉ p.inProgress := h' ▸ Place.isCteInProgress_eq_false_iff.1 hi
  obtain ⟨hquery, hanchor⟩ := hc cte hm hi'
  exact computingCte hi' (computeCte hanchor hquery)

/-- The queries that may be met in a place, with less work ahead than the one at
hand, end without an error. -/
private def LessWorkSucceeds (env : Env) (k : Definitions) (p : Place) (q : Query)
    (n : Nested) : Prop :=
  ∀ (p' : Place) (r : Query), p'.frames.flatten ⊆ k.ctes → p'.depth = p.depth →
    r.definitions ⊆ k.ctes →
    k.work p'.inProgress r < k.work p.inProgress q → SucceedsAt env p' (n.query r) ∧
    SucceedsAt env p' (n.anchor r)

/-- A body of a query, whose parts and the CTEs around it are all less work than the query. -/
private theorem project {k : Definitions} {q : Query} {n : Nested}
    (hn : LessWorkSucceeds env k p q n)
    (hf : p.frames.flatten ⊆ k.ctes) (hq : q.definitions ⊆ k.ctes) (b : Body)
    (hb : b.queries ⊆ q.body.queries) :
    SucceedsAt env p (b.project n) := by
  have hc :
      CtesRelated (Both fun c => c.place = p) (fun _ => True)
        (fun _ x _ => SucceedsAt env p x) n n := by
    refine ctesRelated fun cte hm hi => ?_
    have hw := Definitions.work_cte_lt (hf hm) hi q
    exact hn (p.computing cte.name) cte.query hf rfl (k.closed cte (hf hm)) hw
  refine (layers env p).body hc b (fun _ _ => trivial) fun r hr => ?_
  have hd : r.definitions ⊆ k.ctes :=
    fun d hd => hq (Query.definitions_subset_of_mem_body (hb hr) hd)
  exact (hn p r hf rfl hd (Definitions.work_lt k p.inProgress (hb hr))).1

/-- With room for as many open queries as there is work, a query is resolved in its place,
and so is its leftmost branch. -/
theorem within (k : Definitions) (fuel : Nat) (p : Place) (q : Query)
    (hp : p.frames.flatten ⊆ k.ctes)
    (hq : q.definitions ⊆ k.ctes) (hw : k.work p.inProgress q < fuel)
    (hl : p.depth + fuel ≤ env.config.maxNestingDepth) :
    SucceedsAt env p ((Nested.within fuel).query q) ∧
    SucceedsAt env p ((Nested.within fuel).anchor q) := by
  induction fuel generalizing p q with
  | zero => omega
  | succ fuel ih =>
    have inside : ∀ p' : Place, p'.depth = p.depth + 1 → p'.inProgress = p.inProgress →
        LessWorkSucceeds env k p' q (Nested.within fuel) := by
      intro p' hd hi p'' r hf hd' hr hlt
      rw [hi] at hlt
      exact ih p'' r hf hr (by omega) (by omega)
    have hd : p.depth < env.config.maxNestingDepth := by omega
    constructor
    · have hf : (p.deeper.withCtes q.ctes).frames.flatten ⊆ k.ctes :=
        List.append_subset.2 ⟨fun c hc => hq (q.ctes_subset_definitions hc), hp⟩
      have hb := project (inside (p.deeper.withCtes q.ctes) rfl rfl) hf hq q.body fun r hr => hr
      exact opening hd (bind (withCtes hb) fun projection =>
        of_outcome (fun _ => _) id (fun _ => rfl) fun _ => rfl)
    · have hb :=
        project (inside p.deeper rfl rfl) hp hq q.body.leftmost q.body.queries_leftmost_subset
      exact opening hd (bind hb fun projection => (congruence env p.deeper).pure _)

end SucceedsAt

open Filter

variable (env : Env) (p : Place)

/-- In every place every query is resolved without an error, and so is its leftmost branch, under
every limit from some one on. -/
theorem eventually_succeedsAt_nested (q : Query) :
    ∀ᶠ limit in atTop,
      SucceedsAt (env.limited limit) p ((Nested.within (limit - p.depth)).query q) ∧
      SucceedsAt (env.limited limit) p ((Nested.within (limit - p.depth)).anchor q) := by
  let k := Definitions.around p.frames q
  filter_upwards [eventually_gt_atTop (p.depth + k.work p.inProgress q)] with limit h
  refine SucceedsAt.within k _ p q ?_ ?_ (by omega) (by simp only [Env.limited]; omega)
  · exact fun d hd => List.mem_append_left _ (List.mem_append_left _ hd)
  · exact fun d hd => List.mem_append_right _ hd

theorem eventually_forall_mem {α : Type} {as : List α} {Q : Nat → α → Prop}
    (h : ∀ a ∈ as, ∀ᶠ limit in atTop, Q limit a) : ∀ᶠ limit in atTop, ∀ a ∈ as, Q limit a :=
  (eventually_all_finite as.finite_toSet).2 h

/-- The CTEs around a place can be computed there under every limit from some one on. -/
theorem eventually_ctesRelated :
    ∀ᶠ limit in atTop, CtesRelated (Both fun c => c.place = p) (fun _ => True)
      (fun _ x _ => SucceedsAt (env.limited limit) p x) (Nested.within (limit - p.depth))
      (Nested.within (limit - p.depth)) := by
  have hall : ∀ᶠ limit in atTop, ∀ cte ∈ p.frames.flatten,
      SucceedsAt (env.limited limit) (p.computing cte.name)
        ((Nested.within (limit - p.depth)).query cte.query) ∧
        SucceedsAt (env.limited limit) (p.computing cte.name)
          ((Nested.within (limit - p.depth)).anchor cte.query) :=
    eventually_forall_mem fun cte _ =>
      eventually_succeedsAt_nested env (p.computing cte.name) cte.query
  filter_upwards [hall] with limit h
  exact SucceedsAt.ctesRelated fun cte hm _ => h cte hm

end Analysis

end ResultShape
