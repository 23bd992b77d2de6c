import ResultShape.Proofs.Analysis.Loading
/-! Restoration: a query, also one that fails, leaves the context of its analysis as it found it.
Columns of tables that it loaded and columns of CTEs that it computed stay. -/
namespace ResultShape

namespace Context

/-- One change that an analysis makes to its context. Only a CTE that is being
computed shows columns to itself. -/
inductive Step : Context → Context → Prop where
  | nextStatement (c : Context) : Step c c.nextStatement
  | bindings (c : Context) (bindings : Bindings) : Step c { c with bindings }
  | scopes (c : Context) (scopes : ScopeStack) : Step c { c with scopes }
  | cteCache (c : Context) (cteCache : Keyed (Nat × String) ColumnMap) : Step c { c with cteCache }
  | depth (c : Context) (depth : Nat) : Step c { c with depth }
  | pushCtes (c : Context) (ctes : List Cte) : Step c (c.pushCtes ctes)
  | popCtes (c : Context) : Step c c.popCtes
  | beginCte (c : Context) (name : String) : Step c (c.beginCte name)
  | setCteAnchor (c : Context) (name : String) (columns : ColumnMap)
    (h : c.isCteInProgress name = true) : Step c (c.setCteAnchor name columns)
  | endCte (c : Context) (name : String) : Step c (c.endCte name)

/-- A context that the analysis of a routine can come to, in whatever order it makes its changes. -/
inductive Reachable : Context → Prop where
  | start : Reachable {}
  | step {c c' : Context} (h : Reachable c) (hs : Step c c') : Reachable c'

/-- What a CTE shows to itself is there only while it is being computed. -/
def Anchored (c : Context) : Prop := ∀ k ∈ c.cteAnchors.keys, k ∈ c.ctesInProgress

theorem Step.anchored {c c' : Context} (hs : Step c c') (h : c.Anchored) : c'.Anchored := by
  cases hs with
  | nextStatement => exact h
  | bindings => exact h
  | scopes => exact h
  | cteCache => exact h
  | depth => exact h
  | pushCtes => exact h
  | popCtes => exact h
  | beginCte name =>
    unfold Context.beginCte
    split
    · exact h
    · exact fun k hk => List.mem_cons_of_mem _ (h k hk)
  | setCteAnchor name columns hp =>
    intro k hk
    simp only [Context.setCteAnchor, Keyed.keys_insert] at hk
    split at hk
    · exact h k hk
    · rcases List.mem_append.1 hk with hk | hk
      · exact h k hk
      · rw [List.mem_singleton.1 hk]
        exact List.contains_iff_mem.1 hp
  | endCte name =>
    intro k hk
    simp only [Context.endCte, Keyed.keys_erase, List.mem_filter] at hk ⊢
    exact ⟨h k hk.1, hk.2⟩

theorem Reachable.anchored {c : Context} (h : c.Reachable) : c.Anchored := by
  induction h with
  | start => exact fun k hk => absurd hk (List.not_mem_nil)
  | step _ hs ih => exact hs.anchored ih

/-- Everything is as it was, the scopes up to columns that are loaded now.
Of the cache nothing is said. -/
structure Restored (catalog : Catalog) (c c' : Context) : Prop where
  depth : c'.depth = c.depth
  cteFrames : c'.cteFrames = c.cteFrames
  ctesInProgress : c'.ctesInProgress = c.ctesInProgress
  cteAnchors : c'.cteAnchors = c.cteAnchors
  bindings : c'.bindings = c.bindings
  statement : c'.statement = c.statement
  scopes : ScopeStack.Loaded catalog c.scopes c'.scopes

end Context

namespace Analysis

/-- The second context is the first one, up to scopes and cache, and up to `A` in
what CTEs show to themselves. -/
structure Kept (A : Keyed String ColumnMap → Keyed String ColumnMap → Prop)
    (c c' : Context) : Prop where
  depth : c'.depth = c.depth
  cteFrames : c'.cteFrames = c.cteFrames
  ctesInProgress : c'.ctesInProgress = c.ctesInProgress
  bindings : c'.bindings = c.bindings
  statement : c'.statement = c.statement
  anchored : c'.Anchored
  anchors : A c.cteAnchors c'.cteAnchors

/-- Two lists of anchors that differ in one CTE alone. -/
def SameBut (key : String) (m m' : Keyed String ColumnMap) : Prop := m.erase key = m'.erase key

variable {A : Keyed String ColumnMap → Keyed String ColumnMap → Prop}

theorem equivalence_sameBut (key : String) : Equivalence (SameBut key) :=
  ⟨fun _ => rfl, fun h => h.symm, fun h₁ h₂ => h₁.trans h₂⟩

namespace Kept

variable {c c₁ c₂ : Context}

theorem refl (hA : Equivalence A) (h : c.Anchored) : Kept A c c :=
  ⟨rfl, rfl, rfl, rfl, rfl, h, hA.refl _⟩

theorem trans (hA : Equivalence A) (h₁ : Kept A c c₁) (h₂ : Kept A c₁ c₂) : Kept A c c₂ where
  depth := h₂.depth.trans h₁.depth
  cteFrames := h₂.cteFrames.trans h₁.cteFrames
  ctesInProgress := h₂.ctesInProgress.trans h₁.ctesInProgress
  bindings := h₂.bindings.trans h₁.bindings
  statement := h₂.statement.trans h₁.statement
  anchored := h₂.anchored
  anchors := hA.trans h₁.anchors h₂.anchors

/-- What changes scopes and cache alone keeps the context. -/
theorem of_scopes (hA : Equivalence A) (h : c.Anchored) (scopes : ScopeStack)
    (cteCache : Keyed (Nat × String) ColumnMap) : Kept A c { c with scopes, cteCache } :=
  ⟨rfl, rfl, rfl, rfl, rfl, h, hA.refl _⟩

theorem popScope (h : Kept A c.pushScope c₁) : Kept A c c₁.popScope :=
  ⟨h.depth, h.cteFrames, h.ctesInProgress, h.bindings, h.statement, h.anchored, h.anchors⟩

theorem popCtes {ctes : List Cte} (h : Kept A (c.pushCtes ctes) c₁) : Kept A c c₁.popCtes :=
  ⟨h.depth, congrArg List.tail h.cteFrames, h.ctesInProgress, h.bindings, h.statement,
    h.anchored, h.anchors⟩

theorem leave (h : Kept A { c with depth := c.depth + 1 } c₁) : Kept A c c₁.leave :=
  ⟨congrArg (· - 1) h.depth, h.cteFrames, h.ctesInProgress, h.bindings, h.statement,
    h.anchored, h.anchors⟩

end Kept

/-- While these CTEs are being computed, the action keeps every context, also when it fails. -/
def Keeps (env : Env) (A : Keyed String ColumnMap → Keyed String ColumnMap → Prop)
    (inProgress : List String)
    ⦃α : Type⦄ (x : Analysis α) : Prop :=
  ∀ c, c.ctesInProgress = inProgress → c.Anchored → Kept A c (x.outcome env c).2

namespace Keeps

variable {env : Env} {inProgress : List String} {α β : Type} {x : Analysis α}

/-- What changes scopes and cache alone keeps the context. -/
private theorem of_scopes (hA : Equivalence A)
    (h : ∀ c, ∃ scopes cache, (x.outcome env c).2 = { c with scopes, cteCache := cache }) :
    Keeps env A inProgress x := by
  intro c _ ha
  obtain ⟨scopes, cache, hc⟩ := h c
  rw [hc]
  exact .of_scopes hA ha scopes cache

private theorem bind (hA : Equivalence A) {f : α → Analysis β} (hx : Keeps env A inProgress x)
    (hf : ∀ a, Keeps env A inProgress (f a)) : Keeps env A inProgress (x >>= f) := by
  refine context_bind
    (S := fun c c' => c.ctesInProgress = inProgress → c.Anchored → Kept A c c') ?_ hx hf
  intro c₁ c₂ c₃ h₁ h₂ hc ha
  have hk := h₁ hc ha
  exact hk.trans hA (h₂ (hk.ctesInProgress.trans hc) hk.anchored)

private theorem congruence (hA : Equivalence A) (inProgress : List String) :
    Congruence fun _ x _ => Keeps env A inProgress x where
  pure _ := of_scopes hA fun c => ⟨c.scopes, c.cteCache, rfl⟩
  bind := bind hA
  catalog hf _ := hf env.catalog
  defaultSchema := of_scopes hA fun c => ⟨c.scopes, c.cteCache, rfl⟩
  bindings := of_scopes hA fun c => ⟨c.scopes, c.cteCache, rfl⟩
  lookup _ := of_scopes hA fun c => ⟨_, c.cteCache, rfl⟩
  expand _ := of_scopes hA fun c => ⟨_, c.cteCache, rfl⟩

private theorem inScope (hx : Keeps env A inProgress x) : Keeps env A inProgress (inScope x) :=
  fun c hc ha => (hx c.pushScope hc ha).popScope

private theorem withCtes (ctes : List Cte) (hx : Keeps env A inProgress x) :
    Keeps env A inProgress (withCtes ctes x) :=
  fun c hc ha => (hx (c.pushCtes ctes) hc ha).popCtes

private theorem opening (hA : Equivalence A) (hx : Keeps env A inProgress x) :
    Keeps env A inProgress (opening x) := by
  intro c hc ha
  rw [outcome_opening]
  split
  · exact (hx { c with depth := c.depth + 1 } hc ha).leave
  · exact .refl hA ha

private theorem layers (env : Env) (inProgress : List String) :
    Layers (Both fun c => c.ctesInProgress = inProgress ∧ c.Anchored)
      (fun _ x _ => Keeps env Eq inProgress x)
      fun _ x _ => Keeps env Eq inProgress x where
  toInner := congruence eq_equivalence inProgress
  toOuter := congruence eq_equivalence inProgress
  innermost := Both.innermost_eq
  get hf := fun c hc ha => hf c c ⟨rfl, hc, ha⟩ c hc ha
  addEntry _ _ := of_scopes eq_equivalence fun c => ⟨_, c.cteCache, rfl⟩
  markSide isNullable _ := by cases isNullable <;> exact of_scopes eq_equivalence fun c =>
    ⟨_, c.cteCache, rfl⟩
  ofOuter hx := hx
  inScope := inScope

/-- The columns that the definition of a CTE shows to itself are the only trace of computing it. -/
private theorem computeCte {n : Nested} {cte : Cte} (hn : Text.fold cte.name ∈ inProgress)
    (hq : Keeps env Eq inProgress (n.query cte.query))
    (ha : Keeps env Eq inProgress (n.anchor cte.query)) :
    Keeps env (SameBut (Text.fold cte.name)) inProgress (computeCte n cte) := by
  have hsame := equivalence_sameBut (Text.fold cte.name)
  have hweak : ∀ {α : Type} {x : Analysis α}, Keeps env Eq inProgress x →
      Keeps env (SameBut (Text.fold cte.name)) inProgress x := by
    intro α x hx c hc ha
    have h := hx c hc ha
    exact ⟨h.depth, h.cteFrames, h.ctesInProgress, h.bindings, h.statement, h.anchored,
      h.anchors ▸ hsame.refl _⟩
  refine (congruence hsame inProgress).computeCte (m := n) (fun columns c hc ha => ?_)
    (hweak ha) (hweak hq)
  have hp : c.isCteInProgress cte.name = true := by simpa [Context.isCteInProgress, hc] using hn
  exact ⟨rfl, rfl, rfl, rfl, rfl, (Context.Step.setCteAnchor c cte.name columns hp).anchored ha,
    (Keyed.erase_insert _ _ _).symm⟩

/-- When a CTE is computed that was not being computed, nothing that it showed
to itself was there before. -/
private theorem computingCte {name : String} (hn : Text.fold name ∉ inProgress)
    (hx : Keeps env (SameBut (Text.fold name)) (Text.fold name :: inProgress) x) :
    Keeps env Eq inProgress (computingCte name x) := by
  intro c hc ha
  have hp : ¬c.isCteInProgress name = true := by simpa [Context.isCteInProgress, hc] using hn
  have hb : c.beginCte name = { c with ctesInProgress := Text.fold name :: inProgress } := by
    rw [Context.beginCte, if_neg hp, hc]
  have hkey : Text.fold name ∉ c.cteAnchors.keys := fun hk => hn (hc ▸ ha _ hk)
  have hbegun : ({ c.beginCte name with scopes := [] } : Context).Anchored :=
    (Context.Step.beginCte c name).anchored ha
  have h := hx { c.beginCte name with scopes := [] } (by rw [hb]) hbegun
  rw [outcome_computingCte, outcome_between]
  generalize (x.outcome env { c.beginCte name with scopes := [] }).2 = c' at h
  rw [hb] at h
  have hanchors : c.cteAnchors = c'.cteAnchors.erase (Text.fold name) :=
    (Keyed.erase_eq_self hkey).symm.trans h.anchors
  have hprogress : c'.ctesInProgress.filter (· ≠ Text.fold name) = c.ctesInProgress := by
    rw [h.ctesInProgress, hc, List.filter_cons_of_neg (by simp)]
    exact List.filter_eq_self.2 fun k hk => decide_eq_true fun he => hn (he ▸ hk)
  exact ⟨h.depth, h.cteFrames, hprogress, h.bindings, h.statement,
    (Context.Step.endCte c' name).anchored h.anchored, hanchors⟩

/-- The columns of a CTE are found without a trace if queries leave none. -/
private theorem cteColumns {n : Nested} (inProgress : List String)
    (hn : ∀ inProgress q, Keeps env Eq inProgress (n.query q) ∧
      Keeps env Eq inProgress (n.anchor q)) (cte : Cte) :
    Keeps env Eq inProgress (cteColumns n cte) := by
  refine (layers env inProgress).cteColumns (m := n)
    (fun _ => of_scopes eq_equivalence fun c => ⟨c.scopes, _, rfl⟩) fun c hc hp => ?_
  have hi : Text.fold cte.name ∉ inProgress := by simpa [Context.isCteInProgress, hc.1] using hp
  obtain ⟨hquery, hanchor⟩ := hn (Text.fold cte.name :: inProgress) cte.query
  exact computingCte hi (computeCte List.mem_cons_self hquery hanchor)

private theorem ctesRelated {n : Nested} (inProgress : List String)
    (hn : ∀ inProgress q, Keeps env Eq inProgress (n.query q) ∧
      Keeps env Eq inProgress (n.anchor q)) :
    CtesRelated (Both fun c => c.ctesInProgress = inProgress ∧ c.Anchored) (fun _ => True)
      (fun _ x _ => Keeps env Eq inProgress x) n n :=
  .of_both fun _ _ cte _ _ => cteColumns inProgress hn cte

/-- Queries keep the context however many may still be opened. -/
theorem within (env : Env) (n : Nat) (inProgress : List String) (q : Query) :
    Keeps env Eq inProgress ((Nested.within n).query q) ∧
      Keeps env Eq inProgress ((Nested.within n).anchor q) := by
  induction n generalizing inProgress q with
  | zero =>
    exact ⟨of_scopes eq_equivalence fun c => ⟨c.scopes, c.cteCache, rfl⟩,
      of_scopes eq_equivalence fun c => ⟨c.scopes, c.cteCache, rfl⟩⟩
  | succ n ih =>
    have body (b : Body) : Keeps env Eq inProgress (b.project (Nested.within n)) :=
      (layers env inProgress).body (m := Nested.within n)
      (ctesRelated inProgress ih) b (fun _ _ => trivial)
        fun r _ => (ih inProgress r).1
    constructor
    · refine opening eq_equivalence
        (bind eq_equivalence (withCtes q.ctes (body q.body)) fun _ => ?_)
      exact of_scopes eq_equivalence fun c => ⟨c.scopes, c.cteCache, rfl⟩
    · refine opening eq_equivalence (bind eq_equivalence (body q.body.leftmost) fun _ => ?_)
      exact of_scopes eq_equivalence fun c => ⟨c.scopes, c.cteCache, rfl⟩

theorem columns_within (env : Env) (n : Nat) (inProgress : List String) (cte : Cte) :
    Keeps env Eq inProgress (Analysis.cteColumns (Nested.within n) cte) :=
  cteColumns inProgress (within env n) cte

theorem expr (env : Env) (n : Nat) (inProgress : List String) (e : Expr) :
    Keeps env Eq inProgress (e.resolve (Nested.within n)) :=
  (congruence eq_equivalence inProgress).resolve (m := Nested.within n) e fun q _ =>
    (within env n inProgress q).1

theorem changedRows (env : Env) (n : Nat) (inProgress : List String) (ctes : List Cte)
    (target : Source) (sources : List Source) (isMerge : Bool) (items : List Item) :
    Keeps env Eq inProgress
      (Walk.changedRows ctes target sources isMerge items (Nested.within n)) := by
  have hquery (q : Query) := (within env n inProgress q).1
  have hrows :=
    (layers env inProgress).outputItems (m := Nested.within n)
    (ctesRelated inProgress (within env n))
    target sources isMerge items (fun _ _ => trivial) (fun _ _ _ _ => trivial) (fun q _ => hquery q)
      (fun _ _ q _ => hquery q) fun _ _ q _ => hquery q
  exact inScope (withCtes ctes hrows)

end Keeps

theorem Kept.eq {c c' : Context} (h : Kept Eq c c') :
    c' = { c with scopes := c'.scopes, cteCache := c'.cteCache } := by
  obtain ⟨hdepth, hframes, hprogress, hbindings, hstatement, -, hanchors⟩ := h
  obtain ⟨⟩ := c'
  simp only at hdepth hframes hprogress hbindings hstatement hanchors
  simp only [hdepth, hframes, hprogress, hbindings, hstatement, hanchors]

/-- A context kept from one that an analysis can come to is one that it can come to. -/
theorem Kept.reachable {c c' : Context} (hk : Kept Eq c c') (h : c.Reachable) : c'.Reachable := by
  rw [hk.eq]
  exact .step (.step h (.scopes c c'.scopes)) (.cteCache _ c'.cteCache)

/-- In every context that an analysis can come to, a query leaves all as it found it, whether it
ends in a result set or in an error. -/
theorem query_restores {c : Context} (h : c.Reachable) (env : Env) (q : Query) :
    c.Restored env.catalog
      (((c.depthWithin env.config.maxNestingDepth).nested.query q).outcome env c).2 := by
  have hk :=
    (Keeps.within env (env.config.maxNestingDepth - c.depth) c.ctesInProgress q).1 c rfl h.anchored
  have hs := (Loads.within env (env.config.maxNestingDepth - c.depth) q).1 c
  exact ⟨hk.depth, hk.cteFrames, hk.ctesInProgress, hk.anchors.symm, hk.bindings, hk.statement, hs⟩

/-- A query that fails inside its subquery, while the CTE `a` is being computed. -/
theorem query_restores_after_error :
    let env : Env := ⟨.builtinOnly {}, { maxNestingDepth := 1 }⟩
    let c : Context := .beginCte "a" {}
    let inner : Query :=
      ⟨.select ⟨false, none, [.expr .star none], none, [], none, [], none⟩, [], [], none, none⟩
    let q : Query :=
      ⟨.select ⟨false, none, [.expr (.subquery inner) none], none, [], none, [], none⟩, [],
        [], none, none⟩
    let p := ((c.depthWithin env.config.maxNestingDepth).nested.query q).outcome env c
    c.Reachable ∧ p.1 = .error (.nestingTooDeep 1) ∧ c.Restored env.catalog p.2 :=
  have h : (Context.beginCte "a" {}).Reachable := .step .start (.beginCte {} "a")
  ⟨h, rfl, query_restores h ⟨.builtinOnly {}, { maxNestingDepth := 1 }⟩ _⟩

end Analysis

end ResultShape
