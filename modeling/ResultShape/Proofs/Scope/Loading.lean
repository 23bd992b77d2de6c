import Mathlib.Data.List.Forall2
import ResultShape.Scope.Basic
/-! Loading: scopes that differ only in whether the columns of a table are looked up yet. All that
an answer of the scopes changes in them is that. -/
namespace ResultShape

/-- The second entry is the first one, or the first one with its columns looked up. -/
def Entry.Loaded (catalog : Catalog) (e e' : Entry) : Prop := e' = e ∨ e' = e.load catalog

namespace Entry.Loaded

variable {catalog : Catalog} {e e₁ e₂ : Entry}

theorem refl (e : Entry) : Entry.Loaded catalog e e := .inl rfl

theorem trans (h₁ : Entry.Loaded catalog e e₁) (h₂ : Entry.Loaded catalog e₁ e₂) :
    Entry.Loaded catalog e e₂ := by
  rcases h₁ with rfl | rfl
  · exact h₂
  · rcases h₂ with rfl | rfl
    · exact .inr rfl
    · exact .inr (e.load_load catalog)

/-- Loading the rest of it makes both the same. -/
theorem load_eq (h : Entry.Loaded catalog e e₁) : e₁.load catalog = e.load catalog := by
  rcases h with rfl | rfl
  · rfl
  · exact e.load_load catalog

theorem forceNullable_eq (h : Entry.Loaded catalog e e₁) : e₁.forceNullable = e.forceNullable := by
  rcases h with rfl | rfl <;> rfl

theorem visibleName_eq (h : Entry.Loaded catalog e e₁) : e₁.visibleName = e.visibleName := by
  rcases h with rfl | rfl <;> rfl

theorem markNullable (h : Entry.Loaded catalog e e₁) :
    Entry.Loaded catalog e.markNullable e₁.markNullable := by
  rcases h with rfl | rfl
  · exact .inl rfl
  · exact .inr rfl

theorem forall₂_trans {es es₁ es₂ : List Entry} (h₁ : List.Forall₂ (Entry.Loaded catalog) es es₁)
    (h₂ : List.Forall₂ (Entry.Loaded catalog) es₁ es₂) :
    List.Forall₂ (Entry.Loaded catalog) es es₂ := by
  induction h₁ generalizing es₂ with
  | nil => exact h₂
  | cons he _ ih =>
    cases h₂ with
    | cons he' hes => exact .cons (he.trans he') (ih hes)

end Entry.Loaded

/-- The same keys, and the same entries in the same order, of which some may be loaded now. -/
structure Scope.Loaded (catalog : Catalog) (s s' : Scope) : Prop where
  keys : s'.keys = s.keys
  entries : List.Forall₂ (Entry.Loaded catalog) s.entries s'.entries

namespace Scope

variable {catalog : Catalog} {s s₁ s₂ : Scope}

theorem Loaded.refl (s : Scope) : Scope.Loaded catalog s s :=
  ⟨rfl, List.forall₂_same.2 fun e _ => .refl e⟩

theorem Loaded.trans (h₁ : Scope.Loaded catalog s s₁) (h₂ : Scope.Loaded catalog s₁ s₂) :
    Scope.Loaded catalog s s₂ :=
  ⟨h₂.keys.trans h₁.keys, Entry.Loaded.forall₂_trans h₁.entries h₂.entries⟩

theorem loaded_load (s : Scope) : Scope.Loaded catalog s (s.load catalog) :=
  ⟨rfl, List.forall₂_map_right_iff.2 (List.forall₂_same.2 fun _ _ => .inr rfl)⟩

theorem loaded_loadAt (s : Scope) (i : Nat) : Scope.Loaded catalog s (s.loadAt catalog i) := by
  refine ⟨rfl, List.forall₂_iff_get.2 ⟨by simp [loadAt], fun j hj hj' => ?_⟩⟩
  simp only [loadAt, List.get_eq_getElem, List.getElem_modify]
  split
  · exact .inr rfl
  · exact .inl rfl

end Scope

/-- Loading the rest of it makes both the same. -/
theorem Scope.Loaded.load_eq {catalog : Catalog} {s s' : Scope} (h : Scope.Loaded catalog s s') :
    s'.load catalog = s.load catalog := by
  have hentries : s'.entries.map (Entry.load catalog) = s.entries.map (Entry.load catalog) := by
    have he := h.entries
    generalize s.entries = es at he ⊢
    generalize s'.entries = es' at he ⊢
    induction he with
    | nil => rfl
    | cons he _ ih => rw [List.map_cons, List.map_cons, he.load_eq, ih]
  rw [Scope.load, Scope.load, hentries, h.keys]

/-- The same scopes, each of which may have more of its entries loaded. -/
def ScopeStack.Loaded (catalog : Catalog) (stack stack' : ScopeStack) : Prop :=
  List.Forall₂ (Scope.Loaded catalog) stack stack'

namespace ScopeStack

variable {catalog : Catalog} {stack stack₁ stack₂ : ScopeStack}

theorem Loaded.refl (stack : ScopeStack) : Loaded catalog stack stack :=
  List.forall₂_same.2 fun s _ => .refl s

theorem Loaded.trans (h₁ : Loaded catalog stack stack₁) (h₂ : Loaded catalog stack₁ stack₂) :
    Loaded catalog stack stack₂ := by
  induction h₁ generalizing stack₂ with
  | nil => exact h₂
  | cons hs _ ih =>
    cases h₂ with
    | cons hs' hss => exact .cons (hs.trans hs') (ih hss)

theorem Loaded.tail (h : Loaded catalog stack stack₁) : Loaded catalog stack.tail stack₁.tail := by
  cases h with
  | nil => exact .nil
  | cons _ hs => exact hs

/-- The scopes with all columns looked up. -/
def load (catalog : Catalog) (stack : ScopeStack) : ScopeStack := stack.map (.load catalog)

theorem Loaded.load_eq (h : Loaded catalog stack stack₁) :
    stack₁.load catalog = stack.load catalog := by
  induction h with
  | nil => rfl
  | cons hs _ ih =>
    simp only [load, List.map_cons] at ih ⊢
    rw [hs.load_eq, ih]

theorem loaded_lookupQualified (qualifier name : String) (stack : ScopeStack) :
    Loaded catalog stack (lookupQualified catalog qualifier name stack).2 := by
  induction stack with
  | nil => exact .nil
  | cons s rest ih =>
    unfold lookupQualified
    split
    · exact .cons (s.loaded_loadAt _) (Loaded.refl rest)
    · exact .cons (.refl s) ih

theorem loaded_owners (name : String) (stack : ScopeStack) :
    Loaded catalog stack (owners catalog name stack).2 := by
  induction stack with
  | nil => exact .nil
  | cons s rest ih =>
    unfold owners
    dsimp only
    split
    · exact .cons s.loaded_load ih
    · exact .cons s.loaded_load (Loaded.refl rest)

/-- A look-up leaves the scopes as they were, up to columns that it loads. -/
theorem loaded_lookup (ref : ColumnRef) (stack : ScopeStack) :
    Loaded catalog stack (lookup catalog ref stack).2 := by
  unfold lookup
  split
  · exact loaded_lookupQualified _ _ stack
  · have h : Loaded catalog stack (owners catalog ref.name stack).2 := loaded_owners ref.name stack
    unfold lookupUnqualified
    split
    · rename_i heq
      rwa [heq] at h
    · rename_i heq
      rwa [heq] at h

/-- A star leaves the scopes as they were, up to columns that it loads. -/
theorem loaded_expand (qualifier : Option String) (stack : ScopeStack) :
    Loaded catalog stack (expand catalog qualifier stack).2 := by
  cases stack with
  | nil => exact .nil
  | cons s rest =>
    cases qualifier with
    | none => exact .cons s.loaded_load (Loaded.refl rest)
    | some qualifier =>
      simp only [expand]
      split
      · exact .cons (s.loaded_loadAt _) (Loaded.refl rest)
      · exact Loaded.refl _

end ScopeStack

end ResultShape
