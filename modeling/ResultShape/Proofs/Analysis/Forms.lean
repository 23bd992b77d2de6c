import Mathlib.Data.List.Forall2
import ResultShape.Proofs.Sql.Constructs
import ResultShape.Proofs.Sql.Rewriting
/-! Forms of expressions: the analysis of an expression by what stands in its parentheses, by the
rule of a call and by the list of its branches. -/
namespace ResultShape

namespace Expr

theorem meaning_unnested (e : Expr) (n : Nested) : e.unnested.meaning n = e.meaning n := by
  induction e using unnested.induct with
  | case1 inner ih => rw [unnested_paren, ih, meaning]
  | case2 e he => cases e <;> first | exact absurd rfl (he _) | rfl

theorem unnested_ne_paren (e inner : Expr) : e.unnested ≠ .paren inner := by
  induction e using unnested.induct with
  | case1 e ih => rwa [unnested_paren]
  | case2 e he =>
    rw [unnested]
    · exact he inner
    · exact he

theorem head_unnested (e : Expr) : e.unnested.head = e.head := by
  induction e using unnested.induct with
  | case1 inner ih => rw [unnested_paren, ih, head_paren]
  | case2 e he => cases e <;> first | exact absurd rfl (he _) | rfl

theorem literalHint_unnested (e : Expr) : e.unnested.literalHint = e.literalHint := by
  induction e using unnested.induct with
  | case1 inner ih => rw [unnested_paren, literalHint, ih]
  | case2 e he => cases e <;> first | exact absurd rfl (he _) | rfl

theorem meanings_eq_map (n : Nested) (es : List Expr) :
    meanings n es = es.map fun e => (e, e.meaning n) := by
  induction es with
  | nil => rfl
  | cons e es ih => rw [meanings, ih, List.map_cons]

/-- The expressions that a conditional may give. -/
def results (branches : List Branch) (otherwise : Option Expr) : List Expr :=
  branches.map (·.result) ++ otherwise.toList

theorem branchMeanings_append_otherwiseMeaning (n : Nested) (branches : List Branch)
    (otherwise : Option Expr) :
    branchMeanings n branches ++ otherwiseMeaning n otherwise =
      (results branches otherwise).map fun e => (e, e.meaning n) := by
  have hbranches : branchMeanings n branches = (branches.map (·.result)).map fun e =>
      (e, e.meaning n) := by
    induction branches with
    | nil => rfl
    | cons b bs ih =>
      obtain ⟨condition, result⟩ := b
      rw [branchMeanings, ih, List.map_cons, List.map_cons]
  rw [results, List.map_append, hbranches]
  cases otherwise <;> rfl

/-- The parts by which an expression is resolved. Conditions and the insides of queries are none. -/
def parts : Expr → List Expr
  | .cast _ operand _ | .unary _ operand => [operand]
  | .call _ args _ _ | .coalesce args => args
  | .iif _ yes no => [yes, no]
  | .case _ branches otherwise => results branches otherwise
  | .binary _ left right | .nullif left right => [left, right]
  | .paren inner => [inner]
  | _ => []

/-- What holds of an expression as soon as it holds of its parts holds of every expression. -/
@[elab_as_elim]
theorem parts_induction {P : Expr → Prop} (step : ∀ e, (∀ part ∈ e.parts, P part) → P e)
    (e : Expr) : P e := by
  induction e using Expr.meaning.induct (motive_2 := fun o => ∀ e ∈ o, P e)
    (motive_3 := fun bs => ∀ b ∈ bs, P b.result) (motive_4 := fun es => ∀ e ∈ es, P e)
  case case5 ih | case10 ih | case17 ih => exact step _ (List.forall_mem_singleton.2 ih)
  case case6 ih | case11 ih => exact step _ ih
  case case7 ihl ihr | case9 ihl ihr | case12 ihl ihr =>
    exact step _ (List.forall_mem_cons.2 ⟨ihl, List.forall_mem_singleton.2 ihr⟩)
  case case8 ihb iho =>
    refine step _ ?_
    simpa only [parts, results, List.forall_mem_append, List.forall_mem_map,
      Option.mem_toList] using ⟨ihb, iho⟩
  -- the lists of arguments and of branches, and the last branch
  case case19 he => cases he
  case case20 ihe ihes _ he => exact List.forall_mem_cons.2 ⟨ihe, ihes⟩ _ he
  case case21 he => cases he
  case case22 ih _ he => exact Option.some.inj he ▸ ih
  case case23 hb => cases hb
  case case24 ihb ihbs _ hb =>
    exact (List.forall_mem_cons (p := fun b => P b.result)).2 ⟨ihb, ihbs⟩ _ hb
  all_goals exact step _ (List.forall_mem_nil _)

end Expr

namespace Analysis

theorem isUserDefined_eq (n : Name) : isUserDefined n = (BuiltinRule.ofCall? n).isNone := by
  unfold isUserDefined BuiltinRule.ofCall?
  cases n.schema <;> rfl

theorem call_eq (n : Name) (windowed : Bool) (args : List (Expr × Meaning)) :
    call n windowed args =
      (BuiltinRule.ofCall? n).elim (userDefinedCall n) (builtinCall n windowed args) := by
  unfold call BuiltinRule.ofCall?
  generalize (if n.schema.isSome then none else BuiltinRule.ofName? n.name) = rule
  cases rule <;> rfl

theorem aggregateOperand_eq (e : Expr) (m : Meaning) : aggregateOperand e m = match e.head with
    | .star => return {}
    | _ => do
      let column ← m.column
      let typed ← if e.literalHint.isSome then m.typed else pure true
      return { sqlType := if typed then column.sqlType else none
               isNullable := column.isNullable
               literal := e.literalHint } := by
  rw [← Expr.literalHint_unnested]
  unfold aggregateOperand Expr.head
  cases e.unnested <;> rfl

theorem jsonArgument_eq (e : Expr) (m : Meaning) : jsonArgument e m = match e.head with
    | .subquery => do
      let column ← m.column
      return column.asJson column.children.isEmpty
    | .call name _ => if isUserDefined name then wrappedCall name else jsonValue m
    | _ => jsonValue m := by
  unfold jsonArgument Expr.head
  cases e.unnested <;> rfl

end Analysis

namespace ResultColumn

theorem Candidate.score_eq_elim (b : Candidate) :
    b.score = b.column.sqlType.elim b.expr.head.score fun t =>
    b.expr.head.score + 2 + if t.maxLength.isSome || t.precision.isSome || t.scale.isSome then 1
    else 0 := by
  unfold score Expr.head
  cases b.column.sqlType <;> cases b.expr.unnested <;> rfl

/-- Branches with one column, of which one is a null where the other is and counts
for as much as the other does. -/
structure Candidate.Matches (b b' : Candidate) : Prop where
  literal? : b.expr.literal? = b'.expr.literal?
  score : b.expr.head.score = b'.expr.head.score
  column : b.column = b'.column

namespace Candidate.Matches

variable {b b' first first' : Candidate} {rest rest' : List Candidate}

theorem isNullLiteral_eq (h : b.Matches b') : b.isNullLiteral = b'.isNullLiteral := by
  rw [isNullLiteral, isNullLiteral, h.literal?]

theorem score_eq (h : b.Matches b') : b.score = b'.score := by
  rw [score_eq_elim, score_eq_elim, h.score, h.column]

private theorem all_agrees_eq (hfirst : first.Matches first') {bs bs' : List Candidate}
    (h : List.Forall₂ Matches bs bs') : bs.all first.agrees = bs'.all first'.agrees := by
  induction h with
  | nil => rfl
  | cons hb _ ih => rw [List.all_cons, List.all_cons, ih, agrees, agrees, hfirst.column, hb.column]

theorem primary (hfirst : first.Matches first') (h : List.Forall₂ Matches rest rest') :
    (first.primary rest).Matches (first'.primary rest') := by
  unfold Candidate.primary
  rw [all_agrees_eq hfirst (.cons hfirst h)]
  split
  · exact hfirst
  · refine List.rel_foldl (fun best best' hbest c c' hc => ?_) hfirst h
    rw [hbest.score_eq, hc.score_eq]
    split
    · exact hc
    · exact hbest

end Candidate.Matches

private theorem map_column_eq {α : Type} (f : ResultColumn → α) {bs bs' : List Candidate}
    (h : List.Forall₂ Candidate.Matches bs bs') : (bs.map fun b => f b.column) = bs'.map fun b =>
      f b.column := by
  induction h with
  | nil => rfl
  | cons hb _ ih => rw [List.map_cons, List.map_cons, ih, hb.column]

/-- A conditional looks at nothing else of its branches. -/
theorem conditional_congr {bs bs' : List Candidate} (h : List.Forall₂ Candidate.Matches bs bs')
    (hasElse : Bool) :
    conditional bs hasElse = conditional bs' hasElse := by
  have hreal :
      List.Forall₂ Candidate.Matches (bs.filter (!·.isNullLiteral))
        (bs'.filter (!·.isNullLiteral)) :=
    List.rel_filter (fun _ _ hb => by simp only [hb.isNullLiteral_eq]) h
  unfold conditional
  dsimp only
  rw [map_column_eq (·.sqlType) h, map_column_eq (·.isNullable) h]
  generalize bs.filter (!·.isNullLiteral) = cs at hreal
  generalize bs'.filter (!·.isNullLiteral) = cs' at hreal
  cases hreal with
  | nil => rfl
  | cons hfirst hrest => simp only [(Candidate.Matches.primary hfirst hrest).column]

end ResultColumn

theorem Expr.resolve_call (n : Nested) (name : Name) (args : List Expr) (distinct windowed : Bool) :
    resolve n (.call name args distinct windowed) =
      Analysis.call name windowed (meanings n args) := by
  rw [resolve, meaning, Meaning.ofCall]
  repeat' split
  all_goals rfl

theorem Expr.resolve_binary (n : Nested) (op : BinaryOp) (left right : Expr) :
    resolve n (.binary op left right) = do
      return .binary op (← left.resolve n) (← right.resolve n) := by
  rw [resolve, meaning, Meaning.ofBinary]
  split <;> rfl

end ResultShape
