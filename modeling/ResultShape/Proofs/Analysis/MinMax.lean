import ResultShape.Proofs.Analysis.Forms
import ResultShape.Proofs.Analysis.Settled
import ResultShape.Proofs.Text.Fold
/-! `MIN` and `MAX`: the value is one of those of the operand, so its type and its
nullability are those of the operand. A type that only literals give the operand, a number
among them, is not passed on. -/
namespace ResultShape

namespace Expr

mutual

/-- What an expression gives or computes with, but for literals: whatever is neither in parentheses
nor made of operators, of branches or of the arguments of `COALESCE` is a leaf. -/
def leaves : Expr → List Expr
  | .literal _ => []
  | .paren inner => inner.leaves
  | .unary _ operand => operand.leaves
  | .binary _ left right => left.leaves ++ right.leaves
  | .iif _ yes no => yes.leaves ++ no.leaves
  | .case _ branches otherwise => branchesLeaves branches ++ otherwiseLeaves otherwise
  | .coalesce args => argsLeaves args
  | e => [e]

def argsLeaves : List Expr → List Expr
  | [] => []
  | e :: es => e.leaves ++ argsLeaves es

def branchesLeaves : List Branch → List Expr
  | [] => []
  | ⟨_, result⟩ :: rest => result.leaves ++ branchesLeaves rest

def otherwiseLeaves : Option Expr → List Expr
  | none => []
  | some e => e.leaves

end

theorem argsLeaves_eq (es : List Expr) : argsLeaves es = es.flatMap leaves := by
  induction es with
  | nil => rfl
  | cons e es ih => rw [argsLeaves, ih, List.flatMap_cons]

theorem branchesLeaves_append_otherwiseLeaves (branches : List Branch) (otherwise : Option Expr) :
    branchesLeaves branches ++ otherwiseLeaves otherwise =
      (results branches otherwise).flatMap leaves := by
  have hbranches : branchesLeaves branches = (branches.map (·.result)).flatMap leaves := by
    induction branches with
    | nil => rfl
    | cons b bs ih =>
      obtain ⟨condition, result⟩ := b
      rw [branchesLeaves, ih, List.map_cons, List.flatMap_cons]
  rw [results, List.flatMap_append, hbranches]
  cases otherwise <;> simp [otherwiseLeaves]

end Expr

namespace Analysis

variable {env : Env} {k : Nat} {e : Expr} {c c₁ c₂ : Context}

/-- From the context on each of the leaves comes to a column, and the action tells
whether one of them has a type. -/
def LeavesTyped (env : Env) (k : Nat) (c : Context) (leaves : List Expr)
    (typed : Analysis Bool) : Prop :=
  ∃ columns, List.Forall₂ (fun leaf => Settled env c (leaf.resolve (.within k))) leaves columns ∧
    Settled env c typed (columns.any (·.sqlType.isSome))

namespace LeavesTyped

theorem nil : LeavesTyped env k c [] (Meaning.anyTyped []) := ⟨[], .nil, .pure false⟩

theorem leaf {column : ResultColumn} (h : Settled env c (e.resolve (.within k)) column) :
    LeavesTyped env k c [e] (do return (← e.resolve (.within k)).sqlType.isSome) := by
  refine ⟨[column], .cons h .nil, ?_⟩
  rw [List.any_cons, List.any_nil, Bool.or_false]
  exact h.bind (.pure _)

variable {leaves rest : List Expr}

theorem mono {typed : Analysis Bool} (h : LeavesTyped env k c leaves typed)
    (hc : c.Becomes env c₁) :
    LeavesTyped env k c₁ leaves typed := by
  obtain ⟨columns, hcolumns, htyped⟩ := h
  exact ⟨columns, hcolumns.imp fun _ _ h => h.mono hc, htyped.mono hc⟩

theorem append {m : Meaning} {ms : List Meaning} (h : LeavesTyped env k c leaves m.typed)
    (hrest : LeavesTyped env k c rest (Meaning.anyTyped ms)) :
    LeavesTyped env k c (leaves ++ rest) (Meaning.anyTyped (m :: ms)) := by
  obtain ⟨columns, hcolumns, htyped⟩ := h
  obtain ⟨columns', hcolumns', htyped'⟩ := hrest
  refine ⟨columns ++ columns', List.rel_append hcolumns hcolumns', ?_⟩
  rw [List.any_append]
  refine htyped.bind ?_
  cases columns.any (·.sqlType.isSome) with
  | true => exact .pure true
  | false => exact htyped'

end LeavesTyped

/-- Once the expression has come to a column its leaves tell whether its type is
more than that of literals. -/
def TypedByLeaves (env : Env) (k : Nat) (e : Expr) : Prop :=
  ∀ c column c₁, c.Anchored → (e.resolve (.within k)).outcome env c = (.ok column, c₁) →
    LeavesTyped env k c₁ e.leaves (e.meaning (.within k)).typed

namespace TypedByLeaves

/-- Expressions that are resolved one after the other, whatever is made of the columns. -/
theorem mapM {α : Type} {f : Expr → Analysis α} {es : List Expr}
    (hes : ∀ e ∈ es, TypedByLeaves env k e) (hf : ∀ e c a c₁, (f e).outcome env c = (.ok a, c₁) →
      ∃ column, (e.resolve (.within k)).outcome env c = (.ok column, c₁))
    {as : List α} (hc : c.Anchored) (h : (es.mapM f).outcome env c = (.ok as, c₁)) :
    c.Becomes env c₁ ∧
      LeavesTyped env k c₁ (es.flatMap Expr.leaves)
        (Meaning.anyTyped (es.map (Expr.meaning (.within k)))) := by
  induction es generalizing c as with
  | nil =>
    cases h
    exact ⟨.refl hc, .nil⟩
  | cons e es ih =>
    rw [List.forall_mem_cons] at hes
    rw [List.mapM_cons] at h
    obtain ⟨a, c₂, ha, h⟩ := outcome_bind_eq_ok.1 h
    obtain ⟨column, hcolumn⟩ := hf e c a c₂ ha
    obtain ⟨as, c₃, has, h⟩ := outcome_bind_eq_ok.1 h
    cases h
    have hc₂ := becomes_of_resolve hc hcolumn
    obtain ⟨hbecomes, hrest⟩ := ih hes.2 hc₂.anchored has
    exact ⟨hc₂.trans hbecomes, ((hes.1 c column c₂ hc hcolumn).mono hbecomes).append hrest⟩

/-- One of several branches. -/
private theorem ofBranches {es : List Expr} (hes : ∀ e ∈ es, TypedByLeaves env k e) {hasElse : Bool}
    {column : ResultColumn} (hc : c.Anchored)
    (h : (Meaning.ofBranches (es.map fun e => (e, e.meaning (.within k)))
      hasElse).column.outcome env c = (.ok column, c₁)) :
    LeavesTyped env k c₁ (es.flatMap Expr.leaves)
      (Meaning.ofBranches (es.map fun e => (e, e.meaning (.within k))) hasElse).typed := by
  obtain ⟨candidates, c₂, hcandidates, h⟩ := outcome_bind_eq_ok.1 h
  cases h
  rw [List.mapM_map] at hcandidates
  have htyped := (mapM hes (fun e c a c₁ h => ?_) hc hcandidates).2
  · rw [Meaning.ofBranches, List.map_map]
    exact htyped
  · obtain ⟨column, c₂, hcolumn, h⟩ := outcome_bind_eq_ok.1 h
    cases h
    exact ⟨column, hcolumn⟩

theorem iif (condition : Expr) {yes no : Expr} (h : ∀ e ∈ [yes, no], TypedByLeaves env k e) :
    TypedByLeaves env k (.iif condition yes no) := by
  intro c column c₁ hc hcolumn
  have hbranches := ofBranches h hc hcolumn
  rwa [List.flatMap_cons, List.flatMap_singleton] at hbranches

theorem case (operand : Option Expr) {branches : List Branch} {otherwise : Option Expr}
    (h : ∀ e ∈ Expr.results branches otherwise, TypedByLeaves env k e) :
    TypedByLeaves env k (.case operand branches otherwise) := by
  intro c column c₁ hc hcolumn
  rw [Expr.resolve, Expr.meaning, Expr.branchMeanings_append_otherwiseMeaning] at hcolumn
  rw [Expr.leaves, Expr.branchesLeaves_append_otherwiseLeaves, Expr.meaning,
    Expr.branchMeanings_append_otherwiseMeaning]
  exact ofBranches h hc hcolumn

theorem coalesce {args : List Expr} (h : ∀ e ∈ args, TypedByLeaves env k e) :
    TypedByLeaves env k (.coalesce args) := by
  intro c column c₁ hc hcolumn
  rw [Expr.resolve, Expr.meaning, Expr.meanings_eq_map, List.map_map] at hcolumn
  obtain ⟨columns, c₂, hcolumns, hcolumn⟩ := outcome_bind_eq_ok.1 hcolumn
  cases hcolumn
  rw [List.mapM_map] at hcolumns
  rw [Expr.leaves, Expr.argsLeaves_eq, Expr.meaning, Expr.meanings_eq_map, List.map_map]
  exact (mapM h (fun _ _ column _ h => ⟨column, h⟩) hc hcolumns).2

theorem unary (op : UnaryOp) {operand : Expr} (h : TypedByLeaves env k operand) :
    TypedByLeaves env k (.unary op operand) := by
  intro c column c₁ hc hcolumn
  obtain ⟨column, c₂, hoperand, hcolumn⟩ := outcome_bind_eq_ok.1 hcolumn
  cases hcolumn
  exact h c column c₁ hc hoperand

theorem binary (op : BinaryOp) {left right : Expr} (hl : TypedByLeaves env k left)
    (hr : TypedByLeaves env k right) :
    TypedByLeaves env k (.binary op left right) := by
  intro c column c₁ hc h
  have hbinary (n : Nested) : ((Expr.binary op left right).meaning n).column =
        (do return .binary op (← left.resolve n) (← right.resolve n)) ∧
      ((Expr.binary op left right).meaning n).typed =
        Meaning.anyTyped [left.meaning n, right.meaning n] := by
    rw [Expr.meaning, Meaning.ofBinary]
    split <;> exact ⟨rfl, rfl⟩
  rw [Expr.resolve, (hbinary _).1] at h
  obtain ⟨l, c₂, hleft, h⟩ := outcome_bind_eq_ok.1 h
  obtain ⟨r, c₃, hright, h⟩ := outcome_bind_eq_ok.1 h
  cases h
  have hc₂ := (becomes_of_resolve hc hleft).anchored
  have hbecomes := becomes_of_resolve hc₂ hright
  rw [(hbinary _).2, Expr.leaves, ← List.append_nil right.leaves]
  exact ((hl c l c₂ hc hleft).mono hbecomes).append ((hr c₂ r c₁ hc₂ hright).append .nil)

end TypedByLeaves

end Analysis

open Analysis

namespace Expr

theorem typedByLeaves (env : Env) (k : Nat) (e : Expr) : TypedByLeaves env k e := by
  induction e using parts_induction with
  | step e ih =>
    -- an expression without such parts is asked for its own type once more
    have hleaf (htyped : (e.meaning (.within k)).typed = do
        return (← e.resolve (.within k)).sqlType.isSome)
        (hleaves : e.leaves = [e]) : TypedByLeaves env k e := by
      intro c column c₁ hc h
      rw [htyped, hleaves]
      exact .leaf (.resolve hc h)
    cases e with
    | literal value => exact fun c column c₁ hc h => .nil
    | paren inner => exact ih inner (List.mem_singleton_self inner)
    | unary op operand => exact .unary op (ih operand (List.mem_singleton_self operand))
    | binary op left right =>
      exact .binary op (ih left List.mem_cons_self)
        (ih right (List.mem_cons_of_mem _ (List.mem_singleton_self right)))
    | iif condition yes no => exact .iif condition ih
    | case operand branches otherwise => exact .case operand ih
    | coalesce args => exact .coalesce ih
    | call name args distinct windowed =>
      refine hleaf ?_ rfl
      rw [resolve, meaning, Meaning.ofCall]
      repeat' split
      all_goals rfl
    | _ => exact hleaf rfl rfl

end Expr

/-- The rule of `MIN` and `MAX`. -/
private theorem rule_extreme {name : Name} (hn : name.schema = none)
    (hm : Text.fold name.name = "min" ∨ Text.fold name.name = "max") :
    BuiltinRule.ofCall? name = some .aggregate ∧ ∀ operand,
      AggregateRegistry.standard.infer? (Text.fold name.name) operand =
        some ⟨operand.sqlType, operand.isNullable⟩ := by
  have hrule :
      BuiltinRule.ofCall? name = if AggregateRegistry.standard.isAggregate (Text.fold name.name)
      then some .aggregate else BuiltinRule.table.lookup (Text.fold name.name) := by
    rw [BuiltinRule.ofCall?, hn, BuiltinRule.ofName?, AggregateRegistry.isAggregate,
      AggregateRegistry.get?, AggregateRegistry.isAggregate, AggregateRegistry.get?, Text.fold_fold]
    rfl
  rw [hrule]
  rcases hm with hm | hm <;> rw [hm] <;> exact ⟨rfl, fun _ => rfl⟩

namespace Analysis

variable {env : Env} {k : Nat} {e : Expr} {column : ResultColumn} {c c₁ : Context}

/-- The operand of an aggregate, from the column that it comes to and the columns that
its leaves come to after that. -/
private theorem outcome_aggregateOperand (hc : c.Anchored)
    (h : (e.resolve (.within k)).outcome env c = (.ok column, c₁)) :
    ∃ columns,
      List.Forall₂ (fun leaf => Settled env c₁ (leaf.resolve (.within k))) e.leaves columns ∧
      ∃ c₂ operand, (aggregateOperand e (e.meaning (.within k))).outcome env c = (.ok operand, c₂) ∧
        operand.sqlType =
          (if e.literalHint.isSome && !columns.any (·.sqlType.isSome) then none
          else column.sqlType) ∧
        operand.isNullable = column.isNullable := by
  obtain ⟨columns, hcolumns, htyped⟩ := e.typedByLeaves env k c column c₁ hc h
  refine ⟨columns, hcolumns, ?_⟩
  unfold aggregateOperand
  split
  -- nothing is asked of a star, which has nothing to tell either
  · rename_i hstar
    rw [Expr.resolve, ← Expr.meaning_unnested, hstar] at h
    cases h
    exact ⟨c, {}, rfl, (ite_self none).symm, rfl⟩
  · rw [Expr.literalHint_unnested]
    obtain ⟨c₂, hc₂, -⟩ := htyped.outcome (becomes_of_resolve hc h).anchored
    cases e.literalHint with
    | none => exact ⟨c₁, _, outcome_bind_of_ok h, rfl, rfl⟩
    | some hint =>
      refine ⟨c₂, _, (outcome_bind_of_ok h).trans (outcome_bind_of_ok hc₂), ?_, rfl⟩
      cases columns.any (·.sqlType.isSome) <;> rfl

end Analysis

namespace Expr

open Analysis

/-- `MIN` and `MAX` of an expression that comes to a column come to a column of that type and that
nullability, in every context that an analysis can come to and with or without a window. Only where
a number is among the literals that the expression gives or computes with, and none of its leaves
has a type, does the value have no type. -/
theorem extreme_of_operand {env : Env} {c c₁ : Context} (hc : c.Reachable) {name : Name}
    (hn : name.schema = none)
    (hm : Text.fold name.name = "min" ∨ Text.fold name.name = "max") {e : Expr}
    {column : ResultColumn}
    (h : (e.resolve (c.depthWithin env.config.maxNestingDepth).nested).outcome env c =
      (.ok column, c₁))
    (rest : List Expr) (distinct windowed : Bool) :
    let nested := (c.depthWithin env.config.maxNestingDepth).nested
    ∃ columns,
      List.Forall₂ (fun leaf column => ((leaf.resolve nested).outcome env c₁).1 = .ok column)
        e.leaves columns ∧
      ((resolve nested (.call name (e :: rest) distinct windowed)).outcome env c).1 = .ok {
        sqlType := if e.literalHint.isSome && !columns.any (·.sqlType.isSome) then none
        else column.sqlType
        isNullable := column.isNullable
        aggregate := if windowed then none else some (Text.fold name.name) } := by
  intro nested
  obtain ⟨hrule, hinfer⟩ := rule_extreme hn hm
  obtain ⟨columns, hcolumns, c₂, operand, hoperand, hsqlType, hisNullable⟩ :=
    outcome_aggregateOperand hc.anchored h
  have hc₁ := (becomes_of_resolve hc.anchored h).anchored
  refine ⟨columns, hcolumns.imp fun _ _ hleaf => ?_, ?_⟩
  · obtain ⟨c₃, hleaf, -⟩ := hleaf.outcome hc₁
    exact congrArg Prod.fst hleaf
  · have hcall : resolve nested (.call name (e :: rest) distinct windowed) =
        aggregateCall name windowed (some (e, e.meaning nested)) := by
      rw [resolve_call, call_eq, hrule]
      rfl
    rw [hcall, ← hsqlType, ← hisNullable]
    refine (congrArg Prod.fst (outcome_bind_of_ok hoperand)).trans ?_
    dsimp only
    rw [hinfer]
    rfl

/-- `CASE WHEN 1 = 1 THEN … ELSE 0 END`. -/
private def orZero (e : Expr) : Expr :=
  .case none [⟨.binary .eq (.literal (.int 1)) (.literal (.int 1)), e⟩] (some (.literal (.int 0)))

/-- `LEN('x')` is no literal, so that its type is that of the maximum. -/
theorem extreme_of_operand_orZero :
    let env : Env := ⟨.builtinOnly {}, {}⟩
    let nested := (({} : Context).depthWithin env.config.maxNestingDepth).nested
    let e := orZero (.call (.bare "LEN") [.literal (.string "x" false)] false false)
    Context.Reachable {} ∧ (Name.bare "MAX").schema = none ∧
      Text.fold (Name.bare "MAX").name = "max" ∧
      (e.resolve nested).outcome env {} = (.ok (.typed .int false), {}) ∧
      e.literalHint = some .integer ∧
      ((resolve nested (.call (.bare "MAX") [e] false false)).outcome env {}).1 =
        .ok { sqlType := some .int, isNullable := some false, aggregate := some "max" } := by
  intro env nested e
  have hoperand : (e.resolve nested).outcome env {} = (.ok (.typed .int false), {}) := rfl
  have hschema : (Name.bare "MAX").schema = none := rfl
  obtain ⟨columns, hcolumns, hmax⟩ :=
    extreme_of_operand .start hschema (.inr rfl) hoperand [] false false
  refine ⟨.start, hschema, rfl, hoperand, rfl, ?_⟩
  cases hcolumns with
  | cons hleaf hnil =>
    cases hnil
    cases hleaf
    exact hmax

/-- Of literals alone the maximum has no type. -/
theorem extreme_of_literals :
    let env : Env := ⟨.builtinOnly {}, {}⟩
    let nested := (({} : Context).depthWithin env.config.maxNestingDepth).nested
    let e := orZero (.literal (.int 1))
    Context.Reachable {} ∧ ((e.resolve nested).outcome env {}).1 = .ok (.typed .int false) ∧
      ((resolve nested (.call (.bare "MAX") [e] false false)).outcome env {}).1 =
        .ok { sqlType := none, isNullable := some false, aggregate := some "max" } :=
  ⟨.start, rfl, rfl⟩

end Expr

end ResultShape
