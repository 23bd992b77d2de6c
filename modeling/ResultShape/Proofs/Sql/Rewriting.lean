import ResultShape.Analysis.Query
/-! Rewriting: the same routine with other names, and with other
expressions in the place of its own. -/
namespace ResultShape

/-- What becomes of the texts that name something, and of an expression whose parts
have been rewritten already. -/
structure Rewriting where
  name : String → String := id
  expr : Expr → Expr := id
  /-- What becomes, in the end, of an expression that is no part of another one. -/
  value : Expr → Expr := id

def Name.rewrite (ρ : Rewriting) (n : Name) : Name :=
  ⟨n.catalog.map ρ.name, n.schema.map ρ.name, ρ.name n.name⟩

def ColumnRef.rewrite (ρ : Rewriting) (r : ColumnRef) : ColumnRef :=
  ⟨r.schema.map ρ.name, r.qualifier.map ρ.name, ρ.name r.name⟩

def OpenJsonColumn.rewrite (ρ : Rewriting) (c : OpenJsonColumn) : OpenJsonColumn :=
  { c with name := ρ.name c.name }

mutual

def Expr.rewrite (ρ : Rewriting) : Expr → Expr
  | .column ref => ρ.expr (.column (ref.rewrite ρ))
  | .literal value => ρ.expr (.literal value)
  | .var name => ρ.expr (.var (ρ.name name))
  | .star => ρ.expr .star
  | .cast kind operand target => ρ.expr (.cast kind (operand.rewrite ρ) target)
  | .call name args distinct windowed =>
    ρ.expr (.call (name.rewrite ρ) (Expr.rewriteAll ρ args) distinct windowed)
  | .iif condition yes no => ρ.expr (.iif (condition.rewrite ρ) (yes.rewrite ρ) (no.rewrite ρ))
  | .case operand branches otherwise =>
    ρ.expr (.case (Expr.rewrite? ρ operand) (Branch.rewriteAll ρ branches)
      (Expr.rewrite? ρ otherwise))
  | .binary op left right => ρ.expr (.binary op (left.rewrite ρ) (right.rewrite ρ))
  | .unary op operand => ρ.expr (.unary op (operand.rewrite ρ))
  | .coalesce args => ρ.expr (.coalesce (Expr.rewriteAll ρ args))
  | .nullif left right => ρ.expr (.nullif (left.rewrite ρ) (right.rewrite ρ))
  | .subquery query => ρ.expr (.subquery (query.rewrite ρ))
  | .exists query => ρ.expr (.exists (query.rewrite ρ))
  | .isNull operand negated => ρ.expr (.isNull (operand.rewrite ρ) negated)
  | .inList operand items negated =>
    ρ.expr (.inList (operand.rewrite ρ) (Expr.rewriteAll ρ items) negated)
  | .paren inner => ρ.expr (.paren (inner.rewrite ρ))
  | .other text => ρ.expr (.other (ρ.name text))

def Expr.rewrite? (ρ : Rewriting) : Option Expr → Option Expr
  | none => none
  | some e => some (e.rewrite ρ)

def Expr.rewriteAll (ρ : Rewriting) : List Expr → List Expr
  | [] => []
  | e :: es => e.rewrite ρ :: Expr.rewriteAll ρ es

def Branch.rewriteAll (ρ : Rewriting) : List Branch → List Branch
  | [] => []
  | ⟨condition, result⟩ :: rest =>
    ⟨condition.rewrite ρ, result.rewrite ρ⟩ :: Branch.rewriteAll ρ rest

def Query.rewrite (ρ : Rewriting) : Query → Query
  | ⟨body, ctes, orderBy, forClause, sourceText⟩ =>
    ⟨body.rewrite ρ, Cte.rewriteAll ρ ctes, OrderKey.rewriteAll ρ orderBy, forClause,
      sourceText.map ρ.name⟩

def Cte.rewriteAll (ρ : Rewriting) : List Cte → List Cte
  | [] => []
  | ⟨name, columns, query⟩ :: rest =>
    ⟨ρ.name name, columns.map ρ.name, query.rewrite ρ⟩ :: Cte.rewriteAll ρ rest

def Body.rewrite (ρ : Rewriting) : Body → Body
  | .select block => .select (block.rewrite ρ)
  | .setOp op left right => .setOp op (left.rewrite ρ) (right.rewrite ρ)
  | .nested query => .nested (query.rewrite ρ)

def Select.rewrite (ρ : Rewriting) : Select → Select
  | ⟨distinct, top, items, into, sources, condition, groupBy, having⟩ =>
    ⟨distinct, Top.rewrite? ρ top, Item.rewriteAll ρ items, into.map ρ.name,
      Source.rewriteAll ρ sources, (Expr.rewrite? ρ condition).map ρ.value,
      (Expr.rewriteAll ρ groupBy).map ρ.value, (Expr.rewrite? ρ having).map ρ.value⟩

def Top.rewrite? (ρ : Rewriting) : Option Top → Option Top
  | none => none
  | some ⟨quantity, percent, withTies⟩ => some ⟨ρ.value (quantity.rewrite ρ), percent, withTies⟩

def Item.rewriteAll (ρ : Rewriting) : List Item → List Item
  | [] => []
  | i :: is => i.rewrite ρ :: Item.rewriteAll ρ is

def Item.rewrite (ρ : Rewriting) : Item → Item
  | .expr value aliasName => .expr (ρ.value (value.rewrite ρ)) (aliasName.map ρ.name)
  | .star qualifier => .star (qualifier.map ρ.name)
  | .assign name value => .assign (ρ.name name) (ρ.value (value.rewrite ρ))

def OrderKey.rewriteAll (ρ : Rewriting) : List OrderKey → List OrderKey
  | [] => []
  | ⟨value, descending⟩ :: rest =>
    ⟨ρ.value (value.rewrite ρ), descending⟩ :: OrderKey.rewriteAll ρ rest

def Source.rewriteAll (ρ : Rewriting) : List Source → List Source
  | [] => []
  | s :: ss => s.rewrite ρ :: Source.rewriteAll ρ ss

def Source.rewrite (ρ : Rewriting) : Source → Source
  | .named name aliasName => .named (name.rewrite ρ) (aliasName.map ρ.name)
  | .var name aliasName => .var (ρ.name name) (aliasName.map ρ.name)
  | .derived query aliasName columns =>
    .derived (query.rewrite ρ) (ρ.name aliasName) (columns.map ρ.name)
  | .function name args aliasName =>
    .function (name.rewrite ρ) ((Expr.rewriteAll ρ args).map ρ.value) (aliasName.map ρ.name)
  | .openJson value path columns aliasName =>
    .openJson (ρ.value (value.rewrite ρ)) path (columns.map (·.rewrite ρ)) (aliasName.map ρ.name)
  | .join kind left right on =>
    .join kind (left.rewrite ρ) (right.rewrite ρ) ((Expr.rewrite? ρ on).map ρ.value)

end

def Cte.rewrite (ρ : Rewriting) (cte : Cte) : Cte :=
  ⟨ρ.name cte.name, cte.columns.map ρ.name, cte.query.rewrite ρ⟩

namespace Expr

/-- What an expression is to a place that looks at its form, parentheses aside. -/
inductive Head where
  | star
  | literal (value : Literal)
  | cast
  | call (name : Name) (windowed : Bool)
  | subquery
  | other

def head (e : Expr) : Head :=
  match e.unnested with
  | .star => .star
  | .literal value => .literal value
  | .cast .. => .cast
  | .call name _ _ windowed => .call name windowed
  | .subquery _ => .subquery
  | _ => .other

/-- What a branch that is a cast counts for. -/
def Head.score : Head → Nat
  | .cast => 4
  | _ => 0

def Head.rewrite (ρ : Rewriting) : Head → Head
  | .call name windowed => .call (name.rewrite ρ) windowed
  | h => h

theorem head_paren (e : Expr) : (Expr.paren e).head = e.head := by rw [head, unnested_paren, head]

theorem literal?_eq (e : Expr) : e.literal? = match e.head with
    | .literal value => some value
    | _ => none := by
  unfold literal? head
  cases e.unnested <;> rfl

theorem isAggregate_eq (e : Expr) : e.isAggregate = match e.head with
    | .call name windowed =>
      !windowed && name.schema.isNone && AggregateRegistry.standard.isAggregate name.name
    | _ => false := by
  unfold isAggregate head
  cases e.unnested <;> rfl

end Expr

/-- An expression put in the place of another has its form; of one that is no part of
another, little is looked at. -/
structure Rewriting.KeepsForm (ρ : Rewriting) : Prop where
  head : ∀ e, (ρ.expr e).head = e.head
  literalHint : ∀ e, (ρ.expr e).literalHint = e.literalHint
  value_literal? : ∀ e, (ρ.value e).literal? = e.literal?
  value_isAggregate : ∀ e, (ρ.value e).isAggregate = e.isAggregate

variable {ρ : Rewriting}

namespace Rewriting.KeepsForm

variable (h : ρ.KeepsForm)

include h

theorem head_rewrite (e : Expr) : (e.rewrite ρ).head = e.head.rewrite ρ := by
  induction e using Expr.unnested.induct with
  | case1 inner ih => rw [Expr.rewrite, h.head, Expr.head_paren, Expr.head_paren, ih]
  | case2 e he => cases e <;> first | exact absurd rfl (he _) | (rw [Expr.rewrite, h.head]; rfl)

theorem literal?_rewrite (e : Expr) : (e.rewrite ρ).literal? = e.literal? := by
  rw [Expr.literal?_eq, Expr.literal?_eq, h.head_rewrite]
  cases e.head <;> rfl

theorem literalHint_rewrite (e : Expr) : (e.rewrite ρ).literalHint = e.literalHint := by
  induction e using Expr.meaning.induct
    (motive_2 := fun o => otherwiseHint (Expr.rewrite? ρ o) = otherwiseHint o)
    (motive_3 := fun bs => branchesHint (Branch.rewriteAll ρ bs) = branchesHint bs)
    (motive_4 := fun es => argsHint (Expr.rewriteAll ρ es) = argsHint es) <;>
  simp_all only [Expr.rewrite, h.literalHint, Expr.literalHint, Expr.rewrite?, Expr.rewriteAll,
    Branch.rewriteAll, argsHint, otherwiseHint, branchesHint]

/-- A call of an aggregate stays one if names are only written in another case. -/
theorem isAggregate_rewrite (hn : ∀ s, Text.fold (ρ.name s) = Text.fold s) (e : Expr) :
    (e.rewrite ρ).isAggregate = e.isAggregate := by
  rw [Expr.isAggregate_eq, Expr.isAggregate_eq, h.head_rewrite]
  cases e.head <;> simp [Expr.Head.rewrite, Name.rewrite, AggregateRegistry.isAggregate,
    AggregateRegistry.get?, hn]

end Rewriting.KeepsForm

theorem Cte.rewriteAll_eq_map (ρ : Rewriting) (ctes : List Cte) :
    rewriteAll ρ ctes = ctes.map (rewrite ρ) := by
  induction ctes with
  | nil => simp [rewriteAll]
  | cons cte ctes ih =>
    cases cte
    simp [rewriteAll, ih, rewrite]

theorem Item.rewriteAll_eq_map (ρ : Rewriting) (is : List Item) :
    rewriteAll ρ is = is.map (rewrite ρ) := by
  induction is with
  | nil => simp [rewriteAll]
  | cons i is ih => simp [rewriteAll, ih]

theorem Source.rewriteAll_eq_map (ρ : Rewriting) (ss : List Source) :
    rewriteAll ρ ss = ss.map (rewrite ρ) := by
  induction ss with
  | nil => simp [rewriteAll]
  | cons s ss ih => simp [rewriteAll, ih]

theorem Item.isVisible_rewrite (i : Item) : (i.rewrite ρ).isVisible = i.isVisible := by
  cases i <;> simp [rewrite, isVisible]

theorem Item.isStar_rewrite (i : Item) : (i.rewrite ρ).isStar = i.isStar := by
  cases i <;> simp [rewrite, isStar]

mutual

theorem Body.firstSelect_rewrite : ∀ b : Body, (b.rewrite ρ).firstSelect = b.firstSelect.rewrite ρ
  | .select block => by rw [Body.rewrite, Body.firstSelect, Body.firstSelect]
  | .setOp _ left _ => by
      rw [Body.rewrite, Body.firstSelect, Body.firstSelect, left.firstSelect_rewrite]
  | .nested query => by
      rw [Body.rewrite, Body.firstSelect, Body.firstSelect, query.firstSelect_rewrite]

theorem Query.firstSelect_rewrite : ∀ q : Query, (q.rewrite ρ).firstSelect = q.firstSelect.rewrite ρ
  | ⟨body, _, _, _, _⟩ => by
      rw [Query.rewrite, Query.firstSelect, Query.firstSelect, body.firstSelect_rewrite]

end

theorem Body.leftmost_rewrite (b : Body) : (b.rewrite ρ).leftmost = b.leftmost.rewrite ρ := by
  induction b using Body.leftmost.induct with
  | case1 op left right ih => rw [rewrite, leftmost, leftmost, ih]
  | case2 b hb => cases b <;> first | exact absurd rfl (hb _ _ _) | simp [rewrite, leftmost]

theorem Body.isSetOp_rewrite (b : Body) : (b.rewrite ρ).isSetOp = b.isSetOp := by
  cases b <;> simp [rewrite, isSetOp]

namespace Select

variable (s : Select)

theorem into_rewrite : (s.rewrite ρ).into = s.into.map ρ.name := by
  cases s
  rw [rewrite]

theorem items_rewrite : (s.rewrite ρ).items = s.items.map (Item.rewrite ρ) := by
  cases s
  rw [rewrite, Item.rewriteAll_eq_map]

theorem sources_rewrite : (s.rewrite ρ).sources = s.sources.map (Source.rewrite ρ) := by
  cases s
  rw [rewrite, Source.rewriteAll_eq_map]

end Select

namespace Query

variable (q : Query)

theorem body_rewrite : (q.rewrite ρ).body = q.body.rewrite ρ := by
  cases q
  rw [rewrite]

theorem ctes_rewrite : (q.rewrite ρ).ctes = q.ctes.map (Cte.rewrite ρ) := by
  cases q
  rw [rewrite, Cte.rewriteAll_eq_map]

theorem forClause_rewrite : (q.rewrite ρ).forClause = q.forClause := by
  cases q
  rw [rewrite]

theorem sourceText_rewrite : (q.rewrite ρ).sourceText = q.sourceText.map ρ.name := by
  cases q
  rw [rewrite]

end Query

theorem Query.isVisible_rewrite (q : Query) : (q.rewrite ρ).isVisible = q.isVisible := by
  rw [isVisible, isVisible, firstSelect_rewrite, Select.into_rewrite, Select.items_rewrite,
    Option.isNone_map, List.any_map]
  congr 2
  funext i
  exact i.isVisible_rewrite

namespace Rewriting.KeepsForm

variable (h : ρ.KeepsForm)

include h

private theorem topIsSingleRow_rewrite (top : Option Top) :
    (Top.rewrite? ρ top).any Top.isSingleRow = top.any Top.isSingleRow := by
  match top with
  | none => rw [Top.rewrite?]
  | some ⟨quantity, percent, withTies⟩ =>
    simp only [Top.rewrite?, Option.any_some, Top.isSingleRow, h.value_literal?, h.literal?_rewrite]

theorem singleRow_rewrite (hn : ∀ s, Text.fold (ρ.name s) = Text.fold s) (q : Query) :
    (q.rewrite ρ).singleRow = q.singleRow := by
  have hitem (i : Item) : (i.rewrite ρ).isAggregate = i.isAggregate := by
    cases i <;> simp [Item.rewrite, Item.isAggregate, h.value_isAggregate, h.isAggregate_rewrite hn]
  have hgroup (es : List Expr) : ((Expr.rewriteAll ρ es).map ρ.value).isEmpty = es.isEmpty := by
    cases es <;> rfl
  obtain ⟨body, ctes, orderBy, forClause, sourceText⟩ := q
  cases body with
  | select block =>
    obtain ⟨distinct, top, items, into, sources, condition, groupBy, having⟩ := block
    simp only [Query.rewrite, Body.rewrite, Query.singleRow, Select.rewrite, Select.singleRow,
      h.topIsSingleRow_rewrite,
      Source.rewriteAll_eq_map, Item.rewriteAll_eq_map, List.isEmpty_map, hgroup, List.all_map,
      Function.comp_def, hitem]
  | setOp => simp only [Query.rewrite, Body.rewrite, Query.singleRow]
  | nested => simp only [Query.rewrite, Body.rewrite, Query.singleRow]

end Rewriting.KeepsForm

end ResultShape
