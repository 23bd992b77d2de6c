import ResultShape.Proofs.Analysis.Restoration
import ResultShape.Proofs.Analysis.Success
/-! Replay: an action that has come to an answer comes to it again, and leaves the same scopes, when
the columns of CTEs that it computed are kept already. -/
namespace ResultShape

/-- Columns of CTEs, by the number of the statement and the folded name. -/
abbrev CteCache := Keyed (Nat × String) ColumnMap

/-- What one cache keeps the other keeps too. It keeps more of one statement only, and there of no
CTE that is being computed. -/
structure CteCache.Grows (statement : Nat) (inProgress : List String)
    (cache cache' : CteCache) : Prop where
  kept : ∀ {key : Nat × String} {m : ColumnMap}, cache.get? key = some m → cache'.get? key = some m
  others : ∀ key : Nat × String, key.1 ≠ statement → cache'.get? key = cache.get? key
  inProgress : ∀ name ∈ inProgress, cache'.get? (statement, name) = cache.get? (statement, name)

namespace Context

/-- The context with other columns kept of CTEs. -/
def withCache (cache : CteCache) (c : Context) : Context := { c with cteCache := cache }

/-- The cache is what may become of that of the context while its CTEs are being computed. -/
def GrowsTo (c : Context) (cache : CteCache) : Prop :=
  CteCache.Grows c.statement c.ctesInProgress c.cteCache cache

theorem Anchored.computing {c : Context} (h : c.Anchored) (name : String) :
    (c.computing name).Anchored :=
  (Step.beginCte c name).anchored h

namespace GrowsTo

variable {c c₁ : Context} {cache : CteCache}

theorem refl (c : Context) : c.GrowsTo c.cteCache := ⟨id, fun _ _ => rfl, fun _ _ => rfl⟩

theorem trans (h₁ : c.GrowsTo c₁.cteCache) (hs : c₁.statement = c.statement)
    (hp : c₁.ctesInProgress = c.ctesInProgress) (h₂ : c₁.GrowsTo cache) : c.GrowsTo cache := by
  rw [GrowsTo, hs, hp] at h₂
  exact ⟨fun h => h₂.kept (h₁.kept h), fun key hk => (h₂.others key hk).trans (h₁.others key hk),
    fun name hn => (h₂.inProgress name hn).trans (h₁.inProgress name hn)⟩

end GrowsTo

end Context

namespace Analysis

open Context

/-- An action that changes nothing but scopes and cache, and that only adds to the cache, has an
answer; the second action has the same one in the context where all of that is kept. -/
def Replays (env : Env) ⦃α : Type⦄ (x y : Analysis α) : Prop :=
  ∀ c a c₁, c.Anchored → x.outcome env c = (.ok a, c₁) → Kept Eq c c₁ ∧ c.GrowsTo c₁.cteCache ∧
    ∀ cache, c₁.GrowsTo cache → y.outcome env (c.withCache cache) = (.ok a, c₁.withCache cache)

/-- Contexts that differ in the columns kept of CTEs alone. -/
def CacheApart (c c' : Context) : Prop := ∃ cache, c' = c.withCache cache

theorem Kept.eq_withCache {c c' : Context} (h : Kept Eq c c') (hs : c'.scopes = c.scopes) :
    c' = c.withCache c'.cteCache := by
  have hc := h.eq
  rwa [hs] at hc

namespace Replays

variable {env : Env} {α β : Type}

theorem of_outcome {x : Analysis α} (a : Context → α) (scopes : Context → ScopeStack)
    (hx : ∀ c, x.outcome env c = (.ok (a c), { c with scopes := scopes c }))
    (ha : ∀ c cache, a (c.withCache cache) = a c)
    (hs : ∀ c cache, scopes (c.withCache cache) = scopes c) :
    Replays env x x := by
  intro c b c₁ hanchored h
  cases (hx c).symm.trans h
  refine ⟨.of_scopes eq_equivalence hanchored _ _, .refl c, fun cache _ => ?_⟩
  rw [hx, ha, hs]
  rfl

private theorem bind {x y : Analysis α} {f g : α → Analysis β} (hx : Replays env x y)
    (hf : ∀ a, Replays env (f a) (g a)) : Replays env (x >>= f) (y >>= g) := by
  intro c b c₂ hanchored h
  obtain ⟨a, c₁, hxa, hfb⟩ := outcome_bind_eq_ok.1 h
  obtain ⟨hkept₁, hgrows₁, hreplay₁⟩ := hx c a c₁ hanchored hxa
  obtain ⟨hkept₂, hgrows₂, hreplay₂⟩ := hf a c₁ b c₂ hkept₁.anchored hfb
  have hgrows := hgrows₁.trans hkept₁.statement hkept₁.ctesInProgress hgrows₂
  refine ⟨hkept₁.trans eq_equivalence hkept₂, hgrows, fun cache hcache => ?_⟩
  have hcache₁ := hgrows₂.trans hkept₂.statement hkept₂.ctesInProgress hcache
  rw [outcome_bind_of_ok (hreplay₁ cache hcache₁)]
  exact hreplay₂ cache hcache

theorem congruence (env : Env) : Congruence (Replays env) where
  pure a := of_outcome (fun _ => a) (·.scopes) (fun _ => rfl) (fun _ _ => rfl) fun _ _ => rfl
  bind := bind
  catalog hf _ := hf env.catalog
  defaultSchema :=
    of_outcome (fun _ => env.config.defaultSchema) (·.scopes) (fun _ => rfl) (fun _ _ => rfl)
      fun _ _ => rfl
  bindings := of_outcome (·.bindings) (·.scopes) (fun _ => rfl) (fun _ _ => rfl) fun _ _ => rfl
  lookup _ := of_outcome _ _ (outcome_fromScopes env · _) (fun _ _ => rfl) fun _ _ => rfl
  expand _ := of_outcome _ _ (outcome_fromScopes env · _) (fun _ _ => rfl) fun _ _ => rfl

private theorem inScope {x y : Analysis α} (hx : Replays env x y) :
    Replays env (inScope x) (inScope y) := by
  intro c a c₁ hanchored h
  obtain ⟨c₂, hxa, rfl⟩ := outcome_between_eq_ok.1 h
  obtain ⟨hkept, hgrows, hreplay⟩ := hx c.pushScope a c₂ hanchored hxa
  refine ⟨hkept.popScope, hgrows, fun cache hcache => ?_⟩
  exact outcome_between_eq_ok.2 ⟨c₂.withCache cache, hreplay cache hcache, rfl⟩

theorem layers (env : Env) : Layers CacheApart (Replays env) (Replays env) where
  toInner := congruence env
  toOuter := congruence env
  innermost := by
    rintro c _ ⟨cache, rfl⟩
    rfl
  get hf := by
    intro c a c₁ hanchored h
    obtain ⟨hkept, hgrows, -⟩ := hf c c ⟨c.cteCache, rfl⟩ c a c₁ hanchored h
    refine ⟨hkept, hgrows, fun cache hcache => ?_⟩
    obtain ⟨-, -, hreplay⟩ := hf c (c.withCache cache) ⟨cache, rfl⟩ c a c₁ hanchored h
    exact hreplay cache hcache
  addEntry e names :=
    of_outcome (fun _ => ()) (fun c => c.scopes.add e names) (fun _ => rfl) (fun _ _ => rfl)
      fun _ _ => rfl
  markSide isNullable side := by
    cases isNullable
    · exact of_outcome (fun _ => ()) (·.scopes) (fun _ => rfl) (fun _ _ => rfl) fun _ _ => rfl
    · exact of_outcome (fun _ => ()) (fun c => c.scopes.markNullable side.1 side.2) (fun _ => rfl)
        (fun _ _ => rfl)
        fun _ _ => rfl
  ofOuter hx := hx
  inScope := inScope

theorem withCtes (ctes : List Cte) {x y : Analysis α} (hx : Replays env x y) :
    Replays env (withCtes ctes x) (withCtes ctes y) := by
  intro c a c₁ hanchored h
  obtain ⟨c₂, hxa, rfl⟩ := outcome_between_eq_ok.1 h
  obtain ⟨hkept, hgrows, hreplay⟩ := hx (c.pushCtes ctes) a c₂ hanchored hxa
  refine ⟨hkept.popCtes, hgrows, fun cache hcache => ?_⟩
  exact outcome_between_eq_ok.2 ⟨c₂.withCache cache, hreplay cache hcache, rfl⟩

theorem opening {x y : Analysis α} (hx : Replays env x y) :
    Replays env (opening x) (opening y) := by
  intro c a c₁ hanchored h
  obtain ⟨hdepth, c₂, hxa, rfl⟩ := outcome_opening_eq_ok.1 h
  obtain ⟨hkept, hgrows, hreplay⟩ := hx { c with depth := c.depth + 1 } a c₂ hanchored hxa
  refine ⟨hkept.leave, hgrows, fun cache hcache => ?_⟩
  exact outcome_opening_eq_ok.2 ⟨hdepth, c₂.withCache cache, hreplay cache hcache, rfl⟩

section
variable {n : Nested} {cte : Cte} {c c₁ : Context}

/-- What a CTE shows to itself is the only trace of its leftmost branch, besides
columns of CTEs that are kept now. -/
theorem of_anchors (ha : Replays env (n.anchor cte.query) (n.anchor cte.query))
    (hanchored : c.Anchored) (hp : c.isCteInProgress cte.name = true) (h : Anchors n env cte c c₁) :
    Kept (SameBut (Text.fold cte.name)) c c₁ ∧ c.GrowsTo c₁.cteCache := by
  cases h with
  | none => exact ⟨.refl (equivalence_sameBut _) hanchored, .refl c⟩
  | @branch c₂ anchor _ h =>
    obtain ⟨hkept, hgrows, -⟩ := ha c anchor c₂ hanchored h
    have hp₂ : c₂.isCteInProgress cte.name = true := by rwa [isCteInProgress, hkept.ctesInProgress]
    refine ⟨⟨hkept.depth, hkept.cteFrames, hkept.ctesInProgress, hkept.bindings, hkept.statement,
      (Step.setCteAnchor c₂ cte.name _ hp₂).anchored hkept.anchored, ?_⟩, hgrows⟩
    rw [SameBut, setCteAnchor, Keyed.erase_insert, hkept.anchors]

theorem of_computeCte (hq : Replays env (n.query cte.query) (n.query cte.query))
    (ha : Replays env (n.anchor cte.query) (n.anchor cte.query)) (hanchored : c.Anchored)
    (hp : c.isCteInProgress cte.name = true) {m : ColumnMap}
    (h : (computeCte n cte).outcome env c = (.ok m, c₁)) :
    c₁.statement = c.statement ∧ c.GrowsTo c₁.cteCache := by
  obtain ⟨c₂, set, hanchors, hset, -⟩ := outcome_computeCte_eq_ok.1 h
  obtain ⟨hkept₂, hgrows₂⟩ := of_anchors ha hanchored hp hanchors
  obtain ⟨hkept₁, hgrows₁, -⟩ := hq c₂ set c₁ hkept₂.anchored hset
  exact ⟨hkept₁.statement.trans hkept₂.statement,
    hgrows₂.trans hkept₂.statement hkept₂.ctesInProgress hgrows₁⟩

/-- The columns of a CTE that is computed are one more entry of the cache. -/
theorem of_computed (hq : Replays env (n.query cte.query) (n.query cte.query))
    (ha : Replays env (n.anchor cte.query) (n.anchor cte.query)) (hanchored : c.Anchored)
    (hnone : c.cachedCte? cte.name = none) (hp : c.isCteInProgress cte.name = false) {m : ColumnMap}
    (h : (computeCte n cte).outcome env (c.computing cte.name) = (.ok m, c₁)) :
    (c.computed cte.name m c₁).cachedCte? cte.name = some m ∧
    c.GrowsTo (c.computed cte.name m c₁).cteCache := by
  have hnot : Text.fold cte.name ∉ c.ctesInProgress := by simpa [isCteInProgress] using hp
  obtain ⟨hs, hgrows⟩ :=
    of_computeCte hq ha (hanchored.computing cte.name) (isCteInProgress_computing hp) h
  rw [computing_eq hp] at hs hgrows
  have hinsert : (c.computed cte.name m c₁).cteCache =
      c₁.cteCache.insert (c.statement, Text.fold cte.name) m := by
    rw [← hs]
    rfl
  rw [GrowsTo, hinsert]
  refine ⟨?_, fun {key m'} hm => ?_, fun key hk => ?_, fun name hn => ?_⟩
  · change (c.computed cte.name m c₁).cteCache.get? (c₁.statement, Text.fold cte.name) = some m
    rw [hinsert, hs, Keyed.get?_insert, if_pos rfl]
  · rw [Keyed.get?_insert, if_neg]
    · exact hgrows.kept hm
    · rintro rfl
      cases hnone.symm.trans hm
  · rw [Keyed.get?_insert, if_neg]
    · exact hgrows.others key hk
    · rintro rfl
      exact hk rfl
  · rw [Keyed.get?_insert, if_neg]
    · exact hgrows.inProgress name (List.mem_cons_of_mem _ hn)
    · intro he
      cases he
      exact hnot hn

end

/-- The columns of a CTE are found again where those that it computed are
kept, its own among them. -/
private theorem cteColumns {k : Nat} {cte : Cte}
    (hq : Replays env ((Nested.within k).query cte.query) ((Nested.within k).query cte.query))
    (ha : Replays env ((Nested.within k).anchor cte.query) ((Nested.within k).anchor cte.query)) :
    Replays env (cteColumns (Nested.within k) cte) (cteColumns (Nested.within k) cte) := by
  intro c m c₁ hanchored h
  have hkept : Kept Eq c c₁ := by
    have hkeeps := Keeps.columns_within env k c.ctesInProgress cte c rfl hanchored
    rwa [h] at hkeeps
  rcases outcome_cteColumns_eq_ok.1
    h with ⟨hm, rfl⟩ | ⟨hnone, hp, hm, rfl⟩ | ⟨hnone, hp, c₂, hm, rfl⟩
  · refine ⟨hkept, .refl c, fun cache hcache =>
      outcome_cteColumns_eq_ok.2 (.inl ⟨hcache.kept hm, rfl⟩)⟩
  · refine ⟨hkept, .refl c, fun cache hcache =>
      outcome_cteColumns_eq_ok.2 (.inr (.inl ⟨?_, hp, hm, rfl⟩))⟩
    exact (hcache.inProgress _ (List.contains_iff_mem.1 hp)).trans hnone
  -- Its own columns are kept now, so none of what computed them is run again.
  · obtain ⟨hcached, hgrows⟩ := of_computed hq ha hanchored hnone hp hm
    refine ⟨hkept, hgrows, fun cache hcache => outcome_cteColumns_eq_ok.2 (.inl ⟨?_, ?_⟩)⟩
    · rw [cachedCte?, hkept.statement] at hcached
      exact hcache.kept hcached
    · rw [hkept.eq_withCache rfl]
      rfl

private theorem ctesRelated {k : Nat}
    (h : ∀ q, Replays env ((Nested.within k).query q) ((Nested.within k).query q) ∧
      Replays env ((Nested.within k).anchor q) ((Nested.within k).anchor q)) :
    CtesRelated CacheApart (fun _ => True) (Replays env) (Nested.within k) (Nested.within k) := by
  rintro c _ name - - ⟨cache, rfl⟩
  exact ⟨rfl, fun cte _ => cteColumns (h cte.query).1 (h cte.query).2⟩

private theorem project {k : Nat}
    (h : ∀ q, Replays env ((Nested.within k).query q) ((Nested.within k).query q) ∧
      Replays env ((Nested.within k).anchor q) ((Nested.within k).anchor q)) (b : Body) :
    Replays env (b.project (Nested.within k)) (b.project (Nested.within k)) :=
  (layers env).body (ctesRelated h) b (fun _ _ => trivial) fun r _ => (h r).1

theorem within (env : Env) (k : Nat) (q : Query) :
    Replays env ((Nested.within k).query q) ((Nested.within k).query q) ∧
      Replays env ((Nested.within k).anchor q) ((Nested.within k).anchor q) := by
  induction k generalizing q with
  | zero => exact ⟨(fun _ _ _ _ h => by cases h), fun _ _ _ _ h => by cases h⟩
  | succ k ih =>
    have hbody := project ih
    refine ⟨opening (bind (withCtes q.ctes (hbody q.body)) fun p => ?_),
      opening (bind (hbody q.body.leftmost) fun p => (congruence env).pure _)⟩
    exact of_outcome (fun _ => q.resultOf env.config p) (·.scopes) (fun _ => rfl) (fun _ _ => rfl)
      fun _ _ => rfl

/-- A body that was projected is projected again, and projects the same, where
the columns of CTEs are kept. -/
theorem body (env : Env) (k : Nat) (b : Body) :
    Replays env (b.project (Nested.within k)) (b.project (Nested.within k)) :=
  project (within env k) b

theorem columns (env : Env) (k : Nat) (cte : Cte) :
    Replays env (Analysis.cteColumns (Nested.within k) cte)
      (Analysis.cteColumns (Nested.within k) cte) :=
  cteColumns (within env k cte.query).1 (within env k cte.query).2

theorem expr (env : Env) (k : Nat) (e : Expr) :
    Replays env (e.resolve (Nested.within k)) (e.resolve (Nested.within k)) :=
  (congruence env).resolve e fun q _ => (within env k q).1

theorem register (env : Env) (k : Nat) (s : Source) :
    Replays env (s.register (Nested.within k)) (s.register (Nested.within k)) :=
  (layers env).register (ctesRelated (within env k)) s (fun _ _ => trivial) fun q _ =>
    (within env k q).1

theorem changedRows (env : Env) (k : Nat) (ctes : List Cte) (target : Source)
    (sources : List Source) (isMerge : Bool) (items : List Item) :
    Replays env (Walk.changedRows ctes target sources isMerge items (Nested.within k))
      (Walk.changedRows ctes target sources isMerge items (Nested.within k)) := by
  have hquery (q : Query) := (within env k q).1
  have hrows := (layers env).outputItems (ctesRelated (within env k)) target sources isMerge items
      (fun _ _ => trivial)
    (fun _ _ _ _ => trivial) (fun q _ => hquery q) (fun _ _ q _ => hquery q) fun _ _ q _ => hquery q
  exact inScope (withCtes ctes hrows)

section
variable {k : Nat} {c c' : Context}

/-- Outside all scopes there is nothing that an action could leave but columns of CTEs. -/
private theorem eq_withCache {α : Type} {x : Analysis α} {a : α} (hx : Replays env x x)
    (hl : Loads env x)
    (hanchored : c.Anchored) (hs : c.scopes = []) (h : x.outcome env c = (.ok a, c')) :
    c' = c.withCache c'.cteCache := by
  have hloaded := hl c
  rw [h, hs] at hloaded
  exact (hx c a c' hanchored h).1.eq_withCache ((List.forall₂_nil_left_iff.1 hloaded).trans hs.symm)

theorem eq_withCache_of_project {b : Body} {p : Projection} (hanchored : c.Anchored)
    (hs : c.scopes = [])
    (h : (b.project (Nested.within k)).outcome env c = (.ok p, c')) :
    c' = c.withCache c'.cteCache :=
  (body env k b).eq_withCache (Loads.body env k b) hanchored hs h

theorem eq_withCache_of_anchor {q : Query} {anchor : List ResultColumn} (hanchored : c.Anchored)
    (hs : c.scopes = [])
    (h : ((Nested.within k).anchor q).outcome env c = (.ok anchor, c')) :
    c' = c.withCache c'.cteCache :=
  (within env k q).2.eq_withCache (Loads.within env k q).2 hanchored hs h

/-- A body that was projected is projected again, to the same, where the CTE
columns that it computed are kept. -/
theorem project_again {b : Body} {p : Projection} {cache : CteCache} (hanchored : c.Anchored)
    (hs : c.scopes = [])
    (h : (b.project (Nested.within k)).outcome env c = (.ok p, c')) (hcache : c'.GrowsTo cache) :
    (b.project (Nested.within k)).outcome env (c.withCache cache) = (.ok p, c.withCache cache) := by
  have hreplay := (body env k b c p c' hanchored h).2.2 cache hcache
  rw [eq_withCache_of_project hanchored hs h] at hreplay
  exact hreplay

/-- A body that is projected is projected alike after its leftmost branch. -/
theorem leftmost_first {b : Body} {p : Projection} (hanchored : c.Anchored) (hs : c.scopes = [])
    (h : (b.project (Nested.within k)).outcome env c = (.ok p, c')) :
    ∃ l c₁, (b.leftmost.project (Nested.within k)).outcome env c = (.ok l, c₁) ∧
      (b.project (Nested.within k)).outcome env c₁ = (.ok p, c') := by
  induction b using Body.leftmost.induct generalizing p c' with
  | case1 op left right ih =>
    obtain ⟨l, c₁, hl, h⟩ := outcome_bind_eq_ok.1 h
    obtain ⟨l', c₂, hleftmost, hagain⟩ := ih hl
    exact ⟨l', c₂, hleftmost, outcome_bind_eq_ok.2 ⟨l, c₁, hagain, h⟩⟩
  | case2 b hb =>
    rw [Body.leftmost]
    · refine ⟨p, c', h, ?_⟩
      have hc := eq_withCache_of_project hanchored hs h
      have hagain := project_again hanchored hs h (.refl c')
      rwa [← hc] at hagain
    · exact hb

end

end Replays

end Analysis

end ResultShape
