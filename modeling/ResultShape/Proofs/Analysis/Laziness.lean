import ResultShape.Proofs.Analysis.Layers
import ResultShape.Proofs.Analysis.Outcome
import ResultShape.Proofs.Scope.Laziness
/-! Laziness: what an analysis comes to does not depend on which tables it finds looked up. -/
namespace ResultShape

namespace ScopeStack

variable {catalog : Catalog}

/-- The scopes with all columns looked up but for those in the `n` innermost
ones, which stay as they are. -/
def loadBelow (catalog : Catalog) : Nat → ScopeStack → ScopeStack
  | 0, stack => stack.load catalog
  | _ + 1, [] => []
  | n + 1, s :: rest => s :: loadBelow catalog n rest

theorem loadBelow_nil (n : Nat) : loadBelow catalog n [] = [] := by cases n <;> rfl

/-- Where everything is looked up nothing is left to look up. -/
private theorem loadBelow_load (n : Nat) (stack : ScopeStack) :
    (stack.load catalog).loadBelow catalog n = stack.load catalog := by
  induction n generalizing stack with
  | zero =>
    rw [loadBelow, load, load, List.map_map,
      (funext (Scope.load_load catalog) : Scope.load catalog ∘ _ = _)]
  | succ n ih =>
    cases stack with
    | nil => rfl
    | cons s rest => exact congrArg (s.load catalog :: ·) (ih rest)

private theorem lookupQualified_loadBelow (n : Nat) (qualifier name : String) (stack : ScopeStack) :
    lookupQualified catalog qualifier name (stack.loadBelow catalog n) =
      (lookupQualified catalog qualifier name stack).map id (loadBelow catalog n) := by
  induction n generalizing stack with
  | zero =>
    rw [loadBelow, lookupQualified_load, ← (loaded_lookupQualified qualifier name stack).load_eq]
    rfl
  | succ n ih =>
    cases stack with
    | nil => rfl
    | cons s rest =>
      simp only [loadBelow, lookupQualified]
      split
      · rfl
      · rw [ih]
        rfl

private theorem owners_loadBelow (n : Nat) (name : String) (stack : ScopeStack) :
    owners catalog name (stack.loadBelow catalog n) =
      (owners catalog name stack).map id (loadBelow catalog n) := by
  induction n generalizing stack with
  | zero =>
    rw [loadBelow, owners_load, ← (loaded_owners name stack).load_eq]
    rfl
  | succ n ih =>
    cases stack with
    | nil => rfl
    | cons s rest =>
      simp only [loadBelow, owners]
      split
      · rw [ih]
        rfl
      · rfl

/-- A look-up finds the same whatever is looked up before, and leaves the rest to look up. -/
theorem lookup_loadBelow (n : Nat) (ref : ColumnRef) (stack : ScopeStack) :
    lookup catalog ref (stack.loadBelow catalog n) =
      (lookup catalog ref stack).map id (loadBelow catalog n) := by
  unfold lookup
  split
  · exact lookupQualified_loadBelow n _ _ stack
  · unfold lookupUnqualified
    rw [owners_loadBelow]
    cases hfound : owners catalog ref.name stack with
    | mk found loaded =>
      cases found with
      -- by then all scopes are looked up, so that the unknown entries are the same
      | nil =>
        have hload := load_of_owners_eq_nil (congrArg Prod.fst hfound)
        rw [hfound] at hload
        dsimp only at hload
        simp only [Prod.map, id, hload, loadBelow_load]
      | cons => rfl

theorem expand_loadBelow (n : Nat) (qualifier : Option String) (stack : ScopeStack) :
    expand catalog qualifier (stack.loadBelow catalog n) =
      (expand catalog qualifier stack).map id (loadBelow catalog n) := by
  cases n with
  | zero =>
    rw [loadBelow, expand_load, ← (loaded_expand qualifier stack).load_eq]
    rfl
  | succ n =>
    cases stack with
    | nil => rfl
    | cons s rest =>
      cases qualifier with
      | none => rfl
      | some qualifier =>
        simp only [loadBelow, expand]
        split <;> rfl

end ScopeStack

/-- The context with all columns looked up but for those in the `n` innermost scopes. -/
def Context.loadBelow (catalog : Catalog) (n : Nat) (c : Context) : Context :=
  { c with scopes := c.scopes.loadBelow catalog n }

namespace Analysis

/-- Where the columns are looked up that are not in the `n` innermost scopes, for an `n`
from `m` on, the second action comes to what the first one comes to, and leaves the same
with these columns looked up. -/
def Lazily (env : Env) (m : Nat) ⦃α : Type⦄ (x y : Analysis α) : Prop :=
  ∀ n, m ≤ n → ∀ c, y.outcome env (c.loadBelow env.catalog n) =
    (x.outcome env c).map id (.loadBelow env.catalog n)

/-- Contexts of which the second one has columns looked up below the innermost scope. -/
def LoadedBelow (env : Env) (c c' : Context) : Prop := ∃ n, 1 ≤ n ∧ c' = c.loadBelow env.catalog n

namespace Lazily

variable {env : Env} {m : Nat} {α β : Type}

private theorem bind {x y : Analysis α} {f g : α → Analysis β} (hx : Lazily env m x y)
    (hf : ∀ a, Lazily env m (f a) (g a)) : Lazily env m (x >>= f) (y >>= g) := by
  intro n hn c
  rw [outcome_bind, outcome_bind, hx n hn c]
  rcases x.outcome env c with ⟨_ | a, c₁⟩
  · rfl
  · exact hf a n hn c₁

private theorem congruence (env : Env) (m : Nat) : Congruence (Lazily env m) where
  pure _ _ _ _ := rfl
  bind := bind
  catalog hf _ := hf env.catalog
  defaultSchema _ _ _ := rfl
  bindings _ _ _ := rfl
  lookup ref n _ c := by
    rw [outcome_fromScopes, outcome_fromScopes, Context.loadBelow, ScopeStack.lookup_loadBelow]
    rfl
  expand qualifier n _ c := by
    rw [outcome_fromScopes, outcome_fromScopes, Context.loadBelow, ScopeStack.expand_loadBelow]
    rfl

private theorem between {before after : Context → Context} {m' : Nat} {x y : Analysis α}
    (hx : Lazily env m' x y) (h : ∀ n, m ≤ n → ∃ n', m' ≤ n' ∧
      (∀ c : Context, before (c.loadBelow env.catalog n) = (before c).loadBelow env.catalog n') ∧
      ∀ c : Context, after (c.loadBelow env.catalog n') = (after c).loadBelow env.catalog n) :
    Lazily env m (between before after x) (between before after y) := by
  intro n hn c
  obtain ⟨n', hn', hbefore, hafter⟩ := h n hn
  rw [outcome_between, outcome_between, hbefore, hx n' hn']
  exact congrArg (Prod.mk _) (hafter _)

private theorem inScope {x y : Analysis α} (hx : Lazily env 1 x y) :
    Lazily env 0 (inScope x) (inScope y) := by
  refine hx.between fun n _ => ⟨n + 1, Nat.le_add_left 1 n, fun _ => rfl, fun c => ?_⟩
  unfold Context.loadBelow Context.popScope
  cases c.scopes with
  | nil => rw [ScopeStack.loadBelow, List.tail_nil, ScopeStack.loadBelow_nil]
  | cons => rfl

/-- A change of the innermost scope does not meet what is below it. -/
private theorem of_innermost {x : Analysis Unit} (f : ScopeStack → ScopeStack)
    (hx : ∀ c, x.outcome env c = (.ok (), { c with scopes := f c.scopes }))
    (hf : ∀ n stack, f (stack.loadBelow env.catalog (n + 1)) =
      (f stack).loadBelow env.catalog (n + 1)) :
    Lazily env 1 x x := by
  rintro (_ | n) hn c
  · contradiction
  · rw [hx, hx]
    exact congrArg (fun scopes => (Except.ok (), { c with scopes })) (hf n c.scopes)

-- A block fills its innermost scope and asks which entries are in it, so there the two runs must
-- see the same; below it they may differ, and around the block they may differ everywhere.
private theorem layers (env : Env) : Layers (LoadedBelow env) (Lazily env 1) (Lazily env 0) where
  toInner := congruence env 1
  toOuter := congruence env 0
  innermost := by
    rintro c _ ⟨_ | n, hn, rfl⟩
    · contradiction
    · unfold Context.loadBelow
      cases c.scopes <;> rfl
  get hf n hn c := hf c _ ⟨n, hn, rfl⟩ n hn c
  addEntry e names := of_innermost (·.add e names) (fun _ => rfl) fun n stack => by
    cases stack with
    | nil => exact congrArg (({} : Scope).add e names :: ·) (ScopeStack.loadBelow_nil n).symm
    | cons => rfl
  markSide isNullable side := by
    cases isNullable
    · exact (congruence env 1).pure ()
    · exact of_innermost (·.markNullable side.1 side.2) (fun _ => rfl) fun _ stack => by
        cases stack <;> rfl
  ofOuter hx n _ := hx n (Nat.zero_le n)
  inScope := inScope

/-- What an action does with what it reads of the context, if it does not read the scopes. -/
private theorem get {f : Context → Analysis α} (hread : ∀ n c, f (c.loadBelow env.catalog n) = f c)
    (hf : ∀ c, Lazily env m (f c) (f c)) : Lazily env m (MonadState.get >>= f)
    (MonadState.get >>= f) := by
  intro n hn c
  rw [outcome_bind_of_ok (outcome_get env c), outcome_bind_of_ok (outcome_get env _), hread]
  exact hf c n hn c

private theorem withCtes (ctes : List Cte) {x y : Analysis α} (hx : Lazily env m x y) :
    Lazily env m (withCtes ctes x) (withCtes ctes y) :=
  hx.between fun n hn => ⟨n, hn, fun _ => rfl, fun _ => rfl⟩

private theorem opening {x y : Analysis α} (hx : Lazily env m x y) :
    Lazily env m (opening x) (opening y) := by
  intro n hn c
  have hdepth : (c.loadBelow env.catalog n).depth = c.depth := rfl
  rw [outcome_opening, outcome_opening, hdepth]
  split
  · exact hx.between (fun n hn => ⟨n, hn, fun _ => rfl, fun _ => rfl⟩) n hn c
  · rfl

/-- A definition is computed in no scope at all. -/
private theorem computingCte (name : String) (x : Analysis α) :
    Lazily env m (computingCte name x) (computingCte name x) := by
  intro n _ c
  have hbegin :
      (c.loadBelow env.catalog n).beginCte name = (c.beginCte name).loadBelow env.catalog n := by
    unfold Context.beginCte
    rw [apply_ite (Context.loadBelow env.catalog n)]
    rfl
  rw [outcome_computingCte, outcome_computingCte, outcome_between, outcome_between, hbegin]
  rfl

private theorem cteColumns (n : Nested) (cte : Cte) :
    Lazily env m (cteColumns n cte) (cteColumns n cte) := by
  have hcache (columns : ColumnMap) : Lazily env m (modify (.cacheCte cte.name columns))
      (modify (.cacheCte cte.name columns)) := fun _ _ _ => rfl
  refine get (fun _ _ => rfl) fun c => ?_
  split
  · exact (congruence env m).pure _
  · split
    · exact (congruence env m).pure _
    · exact bind (computingCte _ _) fun columns => bind (hcache columns) fun _ =>
        (congruence env m).pure columns

private theorem ctesRelated (n : Nested) :
    CtesRelated (LoadedBelow env) (fun _ => True) (Lazily env 1) n n := by
  rintro c _ name - - ⟨k, -, rfl⟩
  exact ⟨rfl, fun cte _ => cteColumns n cte⟩

/-- Queries come to the same whatever is looked up around them. -/
theorem within (env : Env) (k : Nat) (q : Query) :
    Lazily env 0 ((Nested.within k).query q) ((Nested.within k).query q) ∧
      Lazily env 0 ((Nested.within k).anchor q) ((Nested.within k).anchor q) := by
  induction k generalizing q with
  | zero => exact ⟨fun _ _ _ => rfl, fun _ _ _ => rfl⟩
  | succ k ih =>
    have hbody (b : Body) :
        Lazily env 0 (b.project (Nested.within k)) (b.project (Nested.within k)) :=
      (layers env).body (ctesRelated _) b (fun _ _ => trivial) fun r _ => (ih r).1
    exact ⟨opening (bind (withCtes q.ctes (hbody q.body)) fun _ _ _ _ => rfl),
      opening (bind (hbody q.body.leftmost) fun _ _ _ _ => rfl)⟩

theorem expr (env : Env) (k : Nat) (e : Expr) :
    Lazily env 0 (e.resolve (Nested.within k)) (e.resolve (Nested.within k)) :=
  (congruence env 0).resolve e fun q _ => (within env k q).1

end Lazily

/-- An action comes to the same in contexts of which the second one has more columns looked up. -/
theorem Lazily.outcome_eq {env : Env} {α : Type} {x : Analysis α}
    (hx : Lazily env 0 x x) {c : Context}
    {scopes : ScopeStack} (h : ScopeStack.Loaded env.catalog c.scopes scopes) :
    (x.outcome env { c with scopes }).1 = (x.outcome env c).1 := by
  have h₁ := congrArg Prod.fst (hx 0 (Nat.le_refl 0) c)
  have h₂ := congrArg Prod.fst (hx 0 (Nat.le_refl 0) { c with scopes })
  have hc : Context.loadBelow env.catalog 0 { c with scopes } = c.loadBelow env.catalog 0 :=
    congrArg (fun scopes => { c with scopes }) h.load_eq
  rw [hc] at h₂
  exact h₂.symm.trans h₁

end Analysis

end ResultShape
