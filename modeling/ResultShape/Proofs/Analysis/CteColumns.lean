import ResultShape.Proofs.Analysis.Layers
import ResultShape.Proofs.Analysis.Success
/-! Columns of CTEs: whatever a reference to a CTE gets comes from resolving a definition of that
name, now or when the columns were kept for later references. -/
namespace ResultShape

/-- The columns that a query comes to, or those of its leftmost branch, with the body that is
projected for them, the number of queries that may be opened in it, and the context. -/
inductive CameTo (env : Env) (q : Query) : Nat → Body → Context → List ResultColumn → Prop where
  | query {k : Nat} {c c' : Context} {set : ResultSet}
    (h : ((Nested.within (k + 1)).query q).outcome env c = (.ok set, c')) :
      CameTo env q k q.body (c.inside q) set.columns
  | leftmost {k : Nat} {c c' : Context} {columns : List ResultColumn}
    (h : ((Nested.within (k + 1)).anchor q).outcome env c = (.ok columns, c')) :
    CameTo env q k q.body.leftmost { c with depth := c.depth + 1 } columns

theorem CameTo.exists_of_query {env : Env} {q : Query} {k : Nat} {c c' : Context} {set : ResultSet}
    (h : ((Nested.within k).query q).outcome env c = (.ok set, c')) :
    ∃ k', CameTo env q k' q.body (c.inside q) set.columns := by
  cases k with
  | zero => cases h
  | succ k => exact ⟨k, .query h⟩

theorem CameTo.exists_of_anchor {env : Env} {q : Query} {k : Nat} {c c' : Context}
    {columns : List ResultColumn}
    (h : ((Nested.within k).anchor q).outcome env c = (.ok columns, c')) :
    ∃ k', CameTo env q k' q.body.leftmost { c with depth := c.depth + 1 } columns := by
  cases k with
  | zero => cases h
  | succ k => exact ⟨k, .leftmost h⟩

/-- What a reference to a CTE may get, by the folded name of the CTE: what the context has under
that name, what a definition of the name came to, renamed, or no columns. -/
inductive Context.CteShows (env : Env) (c : Context) (key : String) : ColumnMap → Prop where
  | empty : CteShows env c key .empty
  | cached {statement : Nat} {m : ColumnMap} (h : c.cteCache.get? (statement, key) = some m) :
      CteShows env c key m
  | anchor {m : ColumnMap} (h : c.cteAnchors.get? key = some m) : CteShows env c key m
  | cameTo {k : Nat} {cte : Cte} {b : Body} {c₀ : Context} {columns : List ResultColumn}
    (hk : Text.fold cte.name = key) (h : CameTo env cte.query k b c₀ columns) :
    CteShows env c key (.ofColumns columns cte.columns)

theorem Context.CteShows.of_eq {env : Env} {c c' : Context} {key : String} {m : ColumnMap}
    (hc : c'.cteCache = c.cteCache) (ha : c'.cteAnchors = c.cteAnchors) (h : c.CteShows env key m) :
    c'.CteShows env key m := by
  cases h with
  | empty => exact .empty
  | cached h => exact .cached (hc ▸ h)
  | anchor h => exact .anchor (ha ▸ h)
  | cameTo hk h => exact .cameTo hk h

/-- The same CTEs are defined in the second context, and they show there what
they may show in the first one. -/
structure Context.ShowsAs (env : Env) (c c' : Context) : Prop where
  cteFrames : c'.cteFrames = c.cteFrames
  cteShows : ∀ {key : String} {m : ColumnMap}, c'.CteShows env key m → c.CteShows env key m

namespace Context.ShowsAs

variable {env : Env} {c c₁ c₂ : Context}

private theorem of_found (hf : c₁.cteFrames = c.cteFrames)
    (hc : ∀ statement key m, c₁.cteCache.get? (statement, key) = some m → c.CteShows env key m)
    (ha : ∀ key m, c₁.cteAnchors.get? key = some m → c.CteShows env key m) : c.ShowsAs env c₁ := by
  refine ⟨hf, fun h => ?_⟩
  cases h with
  | empty => exact .empty
  | cached h => exact hc _ _ _ h
  | anchor h => exact ha _ _ h
  | cameTo hk h => exact .cameTo hk h

theorem of_eq (hf : c₁.cteFrames = c.cteFrames) (hc : c₁.cteCache = c.cteCache)
    (ha : c₁.cteAnchors = c.cteAnchors) :
    c.ShowsAs env c₁ :=
  of_found hf (fun _ _ _ h => .cached (hc ▸ h)) fun _ _ h => .anchor (ha ▸ h)

theorem refl (c : Context) : c.ShowsAs env c := of_eq rfl rfl rfl

theorem trans (h₁ : c.ShowsAs env c₁) (h₂ : c₁.ShowsAs env c₂) : c.ShowsAs env c₂ :=
  ⟨h₂.cteFrames.trans h₁.cteFrames, fun h => h₁.cteShows (h₂.cteShows h)⟩

private theorem cacheCte {name : String} {m : ColumnMap} (h : c.CteShows env (Text.fold name) m) :
    c.ShowsAs env (c.cacheCte name m) := by
  refine of_found rfl (fun statement key m' hm => ?_) fun _ _ hm => .anchor hm
  simp only [Context.cacheCte, Keyed.get?_insert] at hm
  split at hm
  · rename_i hkey
    cases hkey
    cases hm
    exact h
  · exact .cached hm

private theorem setCteAnchor {name : String} {m : ColumnMap}
    (h : c.CteShows env (Text.fold name) m) :
    c.ShowsAs env (c.setCteAnchor name m) := by
  refine of_found rfl (fun _ _ _ hm => .cached hm) fun key m' hm => ?_
  simp only [Context.setCteAnchor, Keyed.get?_insert] at hm
  split at hm
  · rename_i hkey
    cases hkey
    cases hm
    exact h
  · exact .anchor hm

private theorem beginCte (c : Context) (name : String) (scopes : ScopeStack) :
    c.ShowsAs env { c.beginCte name with scopes } := by
  unfold Context.beginCte
  split <;> exact of_eq rfl rfl rfl

private theorem endCte (c : Context) (name : String) (scopes : ScopeStack) :
    c.ShowsAs env { c.endCte name with scopes } :=
  of_found rfl (fun _ _ _ h => .cached h) fun _ _ h => .anchor (Keyed.get?_of_erase h)

end Context.ShowsAs

namespace Analysis

/-- Whatever CTEs show after the action, they may have shown before it. -/
def ShowsNoMore (env : Env) ⦃α : Type⦄ (x : Analysis α) : Prop :=
  ∀ c : Context, c.ShowsAs env (x.outcome env c).2

/-- What a definition comes to is what its query comes to, renamed. -/
private theorem cteShows_of_computeCte_eq_ok {env : Env} {k : Nat} {cte : Cte} {c c₁ c' : Context}
    {m : ColumnMap}
    (h : (computeCte (Nested.within k) cte).outcome env c₁ = (.ok m, c')) :
    c.CteShows env (Text.fold cte.name) m := by
  obtain ⟨c₂, set, -, hq, rfl⟩ := outcome_computeCte_eq_ok.1 h
  obtain ⟨k', hq⟩ := CameTo.exists_of_query hq
  exact .cameTo rfl hq

private theorem cteShows_of_computingCte_eq_ok {env : Env} {k : Nat} {cte : Cte} {c c₁ c' : Context}
    {m : ColumnMap}
    (h : (computingCte cte.name (computeCte (Nested.within k) cte)).outcome env c₁ = (.ok m, c')) :
    c.CteShows env (Text.fold cte.name) m := by
  rw [outcome_computingCte] at h
  obtain ⟨c₂, hm, -⟩ := outcome_between_eq_ok.1 h
  exact cteShows_of_computeCte_eq_ok hm

namespace ShowsNoMore

variable {env : Env} {α β : Type} {x : Analysis α}

/-- The second action may use what the first one came to. -/
private theorem bind_outcome {f : α → Analysis β} (hx : ShowsNoMore env x)
    (hf : ∀ c a c', x.outcome env c = (.ok a, c') → c'.ShowsAs env ((f a).outcome env c').2) :
    ShowsNoMore env (x >>= f) := by
  intro c
  have h := hx c
  rw [outcome_bind]
  cases ho : x.outcome env c with
  | mk result c' =>
    rw [ho] at h
    cases result with
    | error e => exact h
    | ok a => exact h.trans (hf c a c' ho)

private theorem bind {f : α → Analysis β} (hx : ShowsNoMore env x)
    (hf : ∀ a, ShowsNoMore env (f a)) :
    ShowsNoMore env (x >>= f) := bind_outcome hx fun _ a c' _ => hf a c'

private theorem congruence (env : Env) : Congruence fun _ x _ => ShowsNoMore env x where
  pure _ := fun c => .refl c
  bind := bind
  catalog hf _ := hf env.catalog
  defaultSchema := fun c => .refl c
  bindings := fun c => .refl c
  lookup _ := fun _ => .of_eq rfl rfl rfl
  expand _ := fun _ => .of_eq rfl rfl rfl

private theorem between {before after : Context → Context} (hx : ShowsNoMore env x)
    (hb : ∀ c : Context, c.ShowsAs env (before c)) (ha : ∀ c : Context, c.ShowsAs env (after c)) :
    ShowsNoMore env (between before after x) :=
  fun c => (hb c).trans ((hx (before c)).trans (ha _))

private theorem layers (env : Env) :
    Layers (Both fun _ => True) (fun _ x _ => ShowsNoMore env x) fun _ x _ =>
      ShowsNoMore env x where
  toInner := congruence env
  toOuter := congruence env
  innermost := Both.innermost_eq
  get hf := fun c => hf c c ⟨rfl, trivial⟩ c
  addEntry _ _ := fun _ => .of_eq rfl rfl rfl
  markSide isNullable _ := by cases isNullable <;> exact fun _ => .of_eq rfl rfl rfl
  ofOuter hx := hx
  inScope hx := between hx (fun _ => .of_eq rfl rfl rfl) fun _ => .of_eq rfl rfl rfl

private theorem withCtes (ctes : List Cte) (hx : ShowsNoMore env x) :
    ShowsNoMore env (withCtes ctes x) := by
  intro c
  have h := hx (c.pushCtes ctes)
  refine ⟨congrArg List.tail h.cteFrames, fun {key m} hs => ?_⟩
  have hinside : (x.outcome env (c.pushCtes ctes)).2.CteShows env key m := by
    refine hs.of_eq ?_ ?_ <;> rfl
  have houtside := h.cteShows hinside
  refine houtside.of_eq ?_ ?_ <;> rfl

private theorem opening (hx : ShowsNoMore env x) : ShowsNoMore env (opening x) := by
  intro c
  rw [outcome_opening]
  split
  · refine between hx (fun _ => ?_) (fun _ => ?_) c <;> exact .of_eq rfl rfl rfl
  · exact .refl c

private theorem computingCte (name : String) (hx : ShowsNoMore env x) :
    ShowsNoMore env (computingCte name x) := by
  intro c
  exact between hx (fun c => .beginCte c name []) (fun c' => .endCte c' name c.scopes) c

private theorem computeCte {k : Nat} {cte : Cte}
    (hq : ShowsNoMore env ((Nested.within k).query cte.query))
    (ha : ShowsNoMore env ((Nested.within k).anchor cte.query)) :
    ShowsNoMore env (computeCte (Nested.within k) cte) := by
  have hset :=
    bind hq fun set => (congruence env).pure (ColumnMap.ofColumns set.columns cte.columns)
  unfold Analysis.computeCte
  dsimp only
  split
  · refine bind_outcome ha fun c anchor c' h => ?_
    obtain ⟨k', hanchor⟩ := CameTo.exists_of_anchor h
    exact .trans (.setCteAnchor (.cameTo rfl hanchor)) (hset _)
  · exact hset

private theorem cteColumns {k : Nat} {cte : Cte}
    (hq : ShowsNoMore env ((Nested.within k).query cte.query))
    (ha : ShowsNoMore env ((Nested.within k).anchor cte.query)) :
    ShowsNoMore env (cteColumns (Nested.within k) cte) := by
  refine bind_outcome (fun c => .refl c) fun c c' _ _ => ?_
  split
  · exact .refl _
  · split
    · exact .refl _
    · refine bind_outcome (computingCte cte.name (computeCte hq ha)) (fun c₁ m c₂ h => ?_) _
      exact .cacheCte (cteShows_of_computingCte_eq_ok h)

/-- Queries add nothing to what CTEs show but what queries come to. -/
theorem within (env : Env) (k : Nat) (q : Query) :
    ShowsNoMore env ((Nested.within k).query q) ∧ ShowsNoMore env ((Nested.within k).anchor q) := by
  induction k generalizing q with
  | zero => exact ⟨fun c => .refl c, fun c => .refl c⟩
  | succ k ih =>
    have hc : CtesRelated (Both fun _ => True) (fun _ => True) (fun _ x _ => ShowsNoMore env x)
        (Nested.within k)
        (Nested.within k) :=
      .of_both fun _ _ cte _ _ => cteColumns (ih cte.query).1 (ih cte.query).2
    have body (b : Body) : ShowsNoMore env (b.project (Nested.within k)) :=
      (layers env).body (m := Nested.within k) hc b (fun _ _ => trivial) fun r _ => (ih r).1
    exact ⟨opening (bind (withCtes q.ctes (body q.body)) fun _ c => .refl c),
      opening (bind (body q.body.leftmost) fun _ c => .refl c)⟩

/-- Registration adds nothing to what CTEs show but what queries come to. -/
theorem register (env : Env) (k : Nat) (s : Source) :
    ShowsNoMore env (s.register (Nested.within k)) := by
  have hc : CtesRelated (Both fun _ => True) (fun _ => True) (fun _ x _ => ShowsNoMore env x)
      (Nested.within k)
      (Nested.within k) :=
    .of_both fun _ _ cte _ _ => cteColumns (within env k cte.query).1 (within env k cte.query).2
  exact (layers env).register (m := Nested.within k) hc s (fun _ _ => trivial) fun q _ =>
    (within env k q).1

end ShowsNoMore

/-- A reference to a CTE gets columns that the CTE may show. -/
theorem cteShows_of_cteColumns_eq_ok {env : Env} {k : Nat} {cte : Cte} {c c' : Context}
    {m : ColumnMap}
    (h : (cteColumns (Nested.within k) cte).outcome env c = (.ok m, c')) :
    c.CteShows env (Text.fold cte.name) m := by
  rcases outcome_cteColumns_eq_ok.1 h with ⟨hcached, -⟩ | ⟨-, -, rfl, -⟩ | ⟨-, -, c₁, hm, -⟩
  · exact .cached hcached
  · cases ha : c.cteAnchor? cte.name with
    | none => exact .empty
    | some m => exact .anchor ha
  · exact cteShows_of_computeCte_eq_ok hm

end Analysis

end ResultShape
