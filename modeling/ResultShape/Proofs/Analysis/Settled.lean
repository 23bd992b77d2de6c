import ResultShape.Proofs.Analysis.Laziness
import ResultShape.Proofs.Analysis.Replay
/-! Settled actions: an expression that has come to a column comes to it again, whatever is
analysed in between. What an action leaves behind are columns that are looked up and columns of
CTEs that are kept, and neither is seen. -/
namespace ResultShape

open Analysis

/-- What becomes of a context when something is analysed in it: the second one is the first one, but
for columns that are looked up by now and for columns of CTEs that are kept by now. -/
structure Context.Becomes (env : Env) (c c' : Context) : Prop where
  kept : Kept Eq c c'
  grows : c.GrowsTo c'.cteCache
  loaded : ScopeStack.Loaded env.catalog c.scopes c'.scopes

namespace Context.Becomes

variable {env : Env} {c c₁ c₂ : Context}

theorem refl (h : c.Anchored) : c.Becomes env c := ⟨.refl eq_equivalence h, .refl c, .refl _⟩

theorem trans (h₁ : c.Becomes env c₁) (h₂ : c₁.Becomes env c₂) : c.Becomes env c₂ :=
  ⟨h₁.kept.trans eq_equivalence h₂.kept,
    h₁.grows.trans h₁.kept.statement h₁.kept.ctesInProgress h₂.grows, h₁.loaded.trans h₂.loaded⟩

theorem anchored (h : c.Becomes env c₁) : c₁.Anchored := h.kept.anchored

end Context.Becomes

namespace Analysis

/-- From the context on the action comes to this value, whatever becomes of the context before. -/
def Settled (env : Env) (c : Context) {α : Type} (x : Analysis α) (a : α) : Prop :=
  ∀ c₁, c.Becomes env c₁ → ∃ c₂, x.outcome env c₁ = (.ok a, c₂) ∧ c₁.Becomes env c₂

namespace Settled

variable {env : Env} {c c₁ : Context} {α β : Type} {x : Analysis α} {a : α}

theorem outcome (h : Settled env c x a) (hc : c.Anchored) :
    ∃ c₁, x.outcome env c = (.ok a, c₁) ∧ c.Becomes env c₁ :=
  h c (.refl hc)

theorem mono (h : Settled env c x a) (hc : c.Becomes env c₁) : Settled env c₁ x a :=
  fun c₂ hc₂ => h c₂ (hc.trans hc₂)

theorem pure (a : α) : Settled env c (Pure.pure a) a := fun c₁ hc => ⟨c₁, rfl, .refl hc.anchored⟩

theorem bind {f : α → Analysis β} {b : β} (hx : Settled env c x a) (hf : Settled env c (f a) b) :
    Settled env c (x >>= f) b := by
  intro c₁ hc₁
  obtain ⟨c₂, hxa, hc₂⟩ := hx c₁ hc₁
  obtain ⟨c₃, hfb, hc₃⟩ := hf c₂ (hc₁.trans hc₂)
  exact ⟨c₃, (outcome_bind_of_ok hxa).trans hfb, hc₂.trans hc₃⟩

end Settled

variable {env : Env} {k : Nat} {e : Expr} {column : ResultColumn} {c c₁ : Context}

theorem becomes_of_resolve (hc : c.Anchored)
    (h : (e.resolve (.within k)).outcome env c = (.ok column, c₁)) :
    c.Becomes env c₁ := by
  obtain ⟨hkept, hgrows, -⟩ := Replays.expr env k e c column c₁ hc h
  have hloaded := Loads.expr env k e c
  rw [h] at hloaded
  exact ⟨hkept, hgrows, hloaded⟩

/-- An expression that comes to a column comes to that column from then on. -/
theorem Settled.resolve (hc : c.Anchored)
    (h : (e.resolve (.within k)).outcome env c = (.ok column, c₁)) :
    Settled env c₁ (e.resolve (.within k)) column := by
  intro c₂ hc₂
  -- once with the columns of CTEs that are kept by now, and then with the tables that are looked up
  -- by now
  have hreplay := (Replays.expr env k e c column c₁ hc h).2.2 c₂.cteCache hc₂.grows
  have hfrom := (becomes_of_resolve hc h).trans hc₂
  have hsame := (Lazily.expr env k e).outcome_eq (c := c.withCache c₂.cteCache) hfrom.loaded
  rw [hreplay] at hsame
  change (Analysis.outcome _ env { c with scopes := c₂.scopes, cteCache := c₂.cteCache }).1 =
    .ok column at hsame
  rw [← hfrom.kept.eq] at hsame
  obtain ⟨c₃, hagain⟩ : ∃ c₃, (e.resolve (.within k)).outcome env c₂ = (.ok column, c₃) :=
    ⟨_, Prod.ext hsame rfl⟩
  exact ⟨c₃, hagain, becomes_of_resolve hc₂.anchored hagain⟩

end Analysis

end ResultShape
