import ResultShape.Scope.Basic
/-! Padding: scopes without entries around a stack are never seen in an answer of the stack. -/
namespace ResultShape

namespace ScopeStack

/-- The second stack is the first one with scopes without entries around it. -/
inductive Padded : ScopeStack → ScopeStack → Prop where
  | nil : Padded [] []
  | empty {rest : ScopeStack} (h : Padded [] rest) : Padded [] (({} : Scope) :: rest)
  | cons (s : Scope) {stack rest : ScopeStack} (h : Padded stack rest) :
      Padded (s :: stack) (s :: rest)

namespace Padded

variable {catalog : Catalog} {stack stack' : ScopeStack}

theorem refl (stack : ScopeStack) : Padded stack stack := by
  induction stack with
  | nil => exact .nil
  | cons s stack ih => exact ih.cons s

theorem tail (h : Padded stack stack') : Padded stack.tail stack'.tail := by
  cases h with
  | nil => exact .nil
  | empty h => exact h
  | cons _ h => exact h

theorem add (h : Padded stack stack') (e : Entry) (names : List String) :
    Padded (stack.add e names) (stack'.add e names) := by
  cases h with
  | nil => exact .refl _
  | empty h => exact h.cons _
  | cons _ h => exact h.cons _

theorem markNullable (h : Padded stack stack') (first last : Nat) :
    Padded (stack.markNullable first last) (stack'.markNullable first last) := by
  cases h with
  | nil => exact .nil
  | empty h => exact h.empty
  | cons _ h => exact h.cons _

/-- The two answers are the same, and so are the stacks up to scopes without entries around them. -/
def SameAnswer {α : Type} (p p' : α × ScopeStack) : Prop := p'.1 = p.1 ∧ Padded p.2 p'.2

private theorem lookupQualified (h : Padded stack stack') (qualifier name : String) :
    SameAnswer (ScopeStack.lookupQualified catalog qualifier name stack)
      (ScopeStack.lookupQualified catalog qualifier name stack') := by
  induction h with
  | nil => exact ⟨rfl, .nil⟩
  | empty _ ih => exact ⟨ih.1, ih.2.empty⟩
  | cons s h ih =>
    unfold ScopeStack.lookupQualified
    split
    · exact ⟨rfl, h.cons _⟩
    · exact ⟨ih.1, ih.2.cons _⟩

private theorem owners (catalog : Catalog) (h : Padded stack stack') (name : String) :
    SameAnswer (ScopeStack.owners catalog name stack) (ScopeStack.owners catalog name stack') := by
  induction h with
  | nil => exact ⟨rfl, .nil⟩
  | empty _ ih => exact ⟨ih.1, ih.2.empty⟩
  | cons s h ih =>
    unfold ScopeStack.owners
    dsimp only
    split
    · exact ⟨ih.1, ih.2.cons _⟩
    · exact ⟨rfl, h.cons _⟩

private theorem unknown_eq (h : Padded stack stack') :
    ScopeStack.unknown stack' = ScopeStack.unknown stack := by
  cases h <;> rfl

theorem lookup (h : Padded stack stack') (ref : ColumnRef) :
    SameAnswer (ScopeStack.lookup catalog ref stack) (ScopeStack.lookup catalog ref stack') := by
  unfold ScopeStack.lookup
  split
  · exact h.lookupQualified _ _
  · obtain ⟨hfound, hstack⟩ := owners catalog h ref.name
    unfold lookupUnqualified
    generalize ScopeStack.owners catalog ref.name stack = p at *
    generalize ScopeStack.owners catalog ref.name stack' = p' at *
    obtain ⟨found, s⟩ := p
    obtain ⟨found', s'⟩ := p'
    subst hfound
    cases found' with
    | nil => exact ⟨congrArg (ColumnLookup.through ref.name) hstack.unknown_eq, hstack⟩
    | cons e es => exact ⟨rfl, hstack⟩

theorem expand (h : Padded stack stack') (qualifier : Option String) :
    SameAnswer (ScopeStack.expand catalog qualifier stack)
      (ScopeStack.expand catalog qualifier stack') := by
  cases h with
  | nil => exact ⟨rfl, .nil⟩
  | empty h => cases qualifier <;> exact ⟨rfl, h.empty⟩
  | cons s h =>
    cases qualifier with
    | none => exact ⟨rfl, h.cons _⟩
    | some qualifier =>
      unfold ScopeStack.expand
      dsimp only
      split <;> exact ⟨rfl, h.cons _⟩

end Padded

end ScopeStack

end ResultShape
