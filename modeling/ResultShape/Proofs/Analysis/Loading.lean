import ResultShape.Proofs.Analysis.Layers
import ResultShape.Proofs.Analysis.Outcome
import ResultShape.Proofs.Scope.Loading
/-! Loading by actions: whatever a query asks for and however it ends, it leaves the scopes around
it as they were, up to columns of tables that it loads. -/
namespace ResultShape.Analysis

variable {env : Env} {α β : Type} {x : Analysis α}

/-- The action leaves all scopes as they were, up to loaded columns. -/
def Loads (env : Env) ⦃α : Type⦄ (x : Analysis α) : Prop :=
  ∀ c, ScopeStack.Loaded env.catalog c.scopes (x.outcome env c).2.scopes

/-- The action may do anything to the innermost scope; the others it leaves as they
were, up to loaded columns. -/
def LoadsBelow (env : Env) ⦃α : Type⦄ (x : Analysis α) : Prop :=
  ∀ c, ScopeStack.Loaded env.catalog c.scopes.tail (x.outcome env c).2.scopes.tail

namespace Loads

private theorem of_eq (h : ∀ c, (x.outcome env c).2.scopes = c.scopes) : Loads env x :=
  fun c => (h c).symm ▸ ScopeStack.Loaded.refl _

theorem below (hx : Loads env x) : LoadsBelow env x := fun c => (hx c).tail

private theorem bind {f : α → Analysis β} (hx : Loads env x) (hf : ∀ a, Loads env (f a)) :
    Loads env (x >>= f) :=
  context_bind (S := fun c c' => ScopeStack.Loaded env.catalog c.scopes c'.scopes) .trans hx hf

theorem congruence (env : Env) : Congruence fun _ x _ => Loads env x where
  pure _ := of_eq fun _ => rfl
  bind := bind
  catalog hf _ := hf env.catalog
  defaultSchema := of_eq fun _ => rfl
  bindings := of_eq fun _ => rfl
  lookup ref := fun c => ScopeStack.loaded_lookup ref c.scopes
  expand qualifier := fun c => ScopeStack.loaded_expand qualifier c.scopes

private theorem get {f : Context → Analysis β} (hf : ∀ c, Loads env (f c)) :
    Loads env (MonadState.get >>= f) :=
  fun c => hf c c

private theorem opening (hx : Loads env x) : Loads env (opening x) := by
  intro c
  rw [outcome_opening]
  split
  · exact hx { c with depth := c.depth + 1 }
  · exact ScopeStack.Loaded.refl _

/-- A definition is computed in no scope, and the scopes of the reference are put back. -/
private theorem computingCte (name : String) (x : Analysis α) : Loads env (computingCte name x) :=
  fun c => ScopeStack.Loaded.refl c.scopes

end Loads

namespace LoadsBelow

private theorem bind {f : α → Analysis β} (hx : LoadsBelow env x) (hf : ∀ a, LoadsBelow env (f a)) :
    LoadsBelow env (x >>= f) :=
  context_bind (S := fun c c' => ScopeStack.Loaded env.catalog c.scopes.tail c'.scopes.tail) .trans
    hx hf

private theorem congruence (env : Env) : Congruence fun _ x _ => LoadsBelow env x where
  pure a := ((Loads.congruence env).pure a).below
  bind := bind
  catalog hf _ := hf env.catalog
  defaultSchema := (Loads.congruence env).defaultSchema.below
  bindings := (Loads.congruence env).bindings.below
  lookup ref := ((Loads.congruence env).lookup ref).below
  expand qualifier := ((Loads.congruence env).expand qualifier).below

end LoadsBelow

theorem loadingLayers (env : Env) :
    Layers (Both fun _ => True) (fun _ x _ => LoadsBelow env x) fun _ x _ => Loads env x where
  toInner := LoadsBelow.congruence env
  toOuter := Loads.congruence env
  innermost := Both.innermost_eq
  get hf := fun c => hf c c ⟨rfl, trivial⟩ c
  addEntry e names := fun c => by
    change ScopeStack.Loaded _ _ (c.scopes.add e names).tail
    cases c.scopes <;> exact ScopeStack.Loaded.refl _
  markSide isNullable side := by
    cases isNullable
    · exact ((Loads.congruence env).pure ()).below
    · intro c
      change ScopeStack.Loaded _ _ (c.scopes.markNullable side.1 side.2).tail
      cases c.scopes <;> exact ScopeStack.Loaded.refl _
  ofOuter hx := hx.below
  inScope hx := fun c => hx c.pushScope

namespace Loads

/-- The columns of a CTE are found without any scope. -/
theorem cteColumns (env : Env) (n : Nested) (cte : Cte) : Loads env (cteColumns n cte) := by
  refine get fun c => ?_
  split
  · exact of_eq fun _ => rfl
  · split
    · exact of_eq fun _ => rfl
    · exact bind (computingCte _ _) fun _ => bind (of_eq fun _ => rfl) fun _ => of_eq fun _ => rfl

private theorem ctesRelated (n : Nested) :
    CtesRelated (Both fun _ => True) (fun _ => True) (fun _ x _ => LoadsBelow env x) n n :=
  .of_both fun _ _ cte _ _ => (cteColumns env n cte).below

theorem within (env : Env) (n : Nat) (q : Query) :
    Loads env ((Nested.within n).query q) ∧ Loads env ((Nested.within n).anchor q) := by
  induction n generalizing q with
  | zero => exact ⟨of_eq fun _ => rfl, of_eq fun _ => rfl⟩
  | succ n ih =>
    have body (b : Body) : Loads env (b.project (Nested.within n)) :=
      (loadingLayers env).body (m := Nested.within n)
      (ctesRelated _) b (fun _ _ => trivial) fun r _ => (ih r).1
    have projected : Loads env (withCtes q.ctes (q.body.project (Nested.within n))) :=
      fun c => body q.body (c.pushCtes q.ctes)
    exact ⟨opening (bind projected fun _ => of_eq fun _ => rfl),
      opening (bind (body q.body.leftmost) fun _ => of_eq fun _ => rfl)⟩

theorem body (env : Env) (n : Nat) (b : Body) : Loads env (b.project (Nested.within n)) :=
  (loadingLayers env).body (m := Nested.within n) (ctesRelated _) b (fun _ _ => trivial) fun r _ =>
    (within env n r).1

theorem expr (env : Env) (n : Nat) (e : Expr) : Loads env (e.resolve (Nested.within n)) :=
  (congruence env).resolve (m := Nested.within n) e fun q _ => (within env n q).1

theorem changedRows (env : Env) (n : Nat) (ctes : List Cte) (target : Source)
    (sources : List Source) (isMerge : Bool)
    (items : List Item) :
    Loads env (Walk.changedRows ctes target sources isMerge items (Nested.within n)) := by
  have hquery (q : Query) := (within env n q).1
  have hrows := (loadingLayers env).outputItems (m := Nested.within n) (ctesRelated _) target
      sources isMerge items
    (fun _ _ => trivial) (fun _ _ _ _ => trivial) (fun q _ => hquery q)
    (fun _ _ q _ => hquery q) fun _ _ q _ => hquery q
  exact fun c => hrows (c.pushScope.pushCtes ctes)

/-- An item of a projection only loads columns. -/
theorem columns (env : Env) (n : Nat) (i : Item) : Loads env (i.columns (Nested.within n)) :=
  (congruence env).columns (m := Nested.within n) i fun q _ => (within env n q).1

theorem allColumns (env : Env) (n : Nat) (items : List Item) :
    Loads env (items.mapM (Item.columns (Nested.within n))) := by
  refine (congruence env).mapM (g := Item.columns (Nested.within n)) (S := Eq) ?_
    (List.forall₂_same.2 fun _ _ => rfl)
  rintro i _ rfl
  exact columns env n i

end Loads

end ResultShape.Analysis
