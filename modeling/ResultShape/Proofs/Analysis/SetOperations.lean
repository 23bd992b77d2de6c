import ResultShape.Proofs.Analysis.Success
import ResultShape.Proofs.Typing.Nullability
/-! Set operations: what operands with equally many columns project together depends on the operands
and their order, and neither on the operators nor on how they are grouped. -/
namespace ResultShape

namespace Projection

/-- Whether the column in a place is null; nothing is known where there is no column. -/
def nullableAt (p : Projection) (i : Nat) : Option Bool := p.columns[i]?.bind (·.isNullable)

def SameWidth (ps : List Projection) : Prop :=
  ∀ p ∈ ps, ∀ q ∈ ps, p.columns.length = q.columns.length

/-- The columns of the first projection, each as often null as all that stand in its place. -/
def joined : List Projection → Projection
  | [] => ⟨[], false⟩
  | p :: ps =>
    { columns := p.columns.mapIdx fun i c =>
        { c with isNullable := anyNullable ((p :: ps).map (·.nullableAt i)) }
      hasWildcard := (p :: ps).any (·.hasWildcard) }

variable {p : Projection} {ps qs : List Projection} {i : Nat}

private theorem nullableAt_eq (h : i < p.columns.length) :
    p.nullableAt i = p.columns[i].isNullable := by
  rw [nullableAt, List.getElem?_eq_getElem h, Option.bind_some]

theorem joined_singleton (p : Projection) : joined [p] = p := by
  have hcolumns : (joined [p]).columns = p.columns := by
    refine List.ext_getElem (List.length_mapIdx ..) fun i _ hi => ?_
    simp only [joined, List.getElem_mapIdx, List.map_cons, List.map_nil, anyNullable_singleton,
      nullableAt_eq hi]
    cases p.columns[i]
    rfl
  rcases p with ⟨columns, hasWildcard⟩
  simp only [joined, mk.injEq, List.any_cons, List.any_nil, Bool.or_false, and_true] at hcolumns ⊢
  exact hcolumns

/-- The columns of two lists are joined as one list. -/
theorem union_joined (hps : ps ≠ []) (hqs : qs ≠ []) (h : SameWidth (ps ++ qs)) :
    (joined ps).union (joined qs) = joined (ps ++ qs) := by
  obtain ⟨p, ps, rfl⟩ := List.exists_cons_of_ne_nil hps
  obtain ⟨q, qs, rfl⟩ := List.exists_cons_of_ne_nil hqs
  have hwidth : p.columns.length = q.columns.length := h p (by simp) q (by simp)
  have hcolumns : ((joined (p :: ps)).union (joined (q :: qs))).columns =
      (joined (p :: ps ++ q :: qs)).columns := by
    refine List.ext_getElem (by simp [joined, union]) fun i hi _ => ?_
    have hp : i < p.columns.length := by simpa [joined, union] using hi
    have hq : i < q.columns.length := hwidth ▸ hp
    simp only [joined, union, List.getElem_mapIdx, List.getElem?_mapIdx,
      List.getElem?_eq_getElem hq, Option.map_some, List.cons_append, ← anyNullable_append,
      ← List.map_append]
  have hwildcard : ((joined (p :: ps)).union (joined (q :: qs))).hasWildcard =
      (joined (p :: ps ++ q :: qs)).hasWildcard := by
    simp only [joined, union, List.cons_append, List.any_cons, List.any_append, Bool.or_assoc]
  exact congr (congrArg Projection.mk hcolumns) hwildcard

end Projection

/-- Operands put together two at a time by set operations. -/
inductive Grouping (α : Type) where
  | operand (a : α)
  | setOp (op : SetOp) (left right : Grouping α)

namespace Grouping

variable {α β : Type}

/-- The operands from left to right. -/
def operands : Grouping α → List α
  | .operand a => [a]
  | .setOp _ left right => left.operands ++ right.operands

def body : Grouping Body → Body
  | .operand b => b
  | .setOp op left right => .setOp op left.body right.body

def union : Grouping Projection → Projection
  | .operand p => p
  | .setOp _ left right => left.union.union right.union

/-- What an action comes to for each operand in turn, grouped like the operands. -/
def forEach (f : α → Analysis β) : Grouping α → Analysis (Grouping β)
  | .operand a => .operand <$> f a
  | .setOp op left right => do
    let left ← left.forEach f
    let right ← right.forEach f
    return .setOp op left right

theorem operands_ne_nil (g : Grouping α) : g.operands ≠ [] := by
  induction g with
  | operand a => exact List.cons_ne_nil a []
  | setOp op left right ihl _ => exact List.append_ne_nil_of_left_ne_nil ihl _

theorem operands_forEach (f : α → Analysis β) (g : Grouping α) :
    operands <$> g.forEach f = g.operands.mapM f := by
  induction g with
  | operand a => simp [operands, forEach]
  | setOp op left right ihl ihr => simp [operands, forEach, List.mapM_append, ← ihl, ← ihr]

theorem project_body (n : Nested) (g : Grouping Body) :
    g.body.project n = union <$> g.forEach (Body.project n) := by
  induction g with
  | operand b => simp [body, union, forEach]
  | setOp op left right ihl ihr => simp [body, union, forEach, Body.project, ihl, ihr]

/-- Of projections with equally many columns only the order counts. -/
theorem union_eq_joined {g : Grouping Projection} (h : Projection.SameWidth g.operands) :
    g.union = .joined g.operands := by
  induction g with
  | operand p => exact (Projection.joined_singleton p).symm
  | setOp op left right ihl ihr =>
    have hl := ihl fun p hp q hq => h p (List.mem_append_left _ hp) q (List.mem_append_left _ hq)
    have hr := ihr fun p hp q hq => h p (List.mem_append_right _ hp) q (List.mem_append_right _ hq)
    rw [union, hl, hr]
    exact Projection.union_joined left.operands_ne_nil right.operands_ne_nil h

end Grouping

/-- Where the bodies can be projected one after the other, they project equally many columns. -/
def Body.SameWidth (n : Nested) (env : Env) (c : Context) (bs : List Body) : Prop :=
  ∀ ps c', (bs.mapM (Body.project n)).outcome env c = (.ok ps, c') → Projection.SameWidth ps

namespace Analysis

variable {env : Env} {k : Nat} {n : Nested} {c : Context}

/-- A body is projected like the list of its operands, errors included. -/
theorem outcome_project_body (g : Grouping Body) (h : Body.SameWidth n env c g.operands) :
    (g.body.project n).outcome env c =
      (Projection.joined <$> g.operands.mapM (Body.project n)).outcome env c := by
  rw [Body.SameWidth] at h
  rw [g.project_body, ← g.operands_forEach, Functor.map_map]
  rw [← g.operands_forEach] at h
  simp only [← bind_pure_comp, outcome_bind]
  rcases hg : (g.forEach (Body.project n)).outcome env c with ⟨_ | projected, c'⟩
  · rfl
  · have hwidth := h projected.operands c' (outcome_map_eq_ok.2 ⟨projected, hg, rfl⟩)
    simp only [Grouping.union_eq_joined hwidth]

private theorem outcome_resolveWith (q : Query) :
    (q.resolveWith n).outcome env c =
      (q.resultOf env.config <$> withCtes q.ctes (q.body.project n)).outcome env c := by
  unfold Query.resolveWith Query.resultOf
  rw [← bind_pure_comp, outcome_bind, outcome_bind]
  rcases (withCtes q.ctes (q.body.project n)).outcome env c with ⟨_ | p, c'⟩ <;> rfl

/-- Set operations that are projected alike give one result set, whatever else the query says. -/
theorem outcome_query_congr {q : Query} {b b' : Body} (hb : b.isSetOp = true)
    (hb' : b'.isSetOp = true)
    (h : (b.project (Nested.within k)).outcome env (c.inside q) =
      (b'.project (Nested.within k)).outcome env (c.inside q)) :
    ((Nested.within (k + 1)).query { q with body := b }).outcome env c =
      ((Nested.within (k + 1)).query { q with body := b' }).outcome env c := by
  have hrow {b : Body} (hb : b.isSetOp = true) : { q with body := b }.singleRow = none := by
    cases b with
    | setOp op left right => rfl
    | select block => cases hb
    | nested query => cases hb
  have hresult :
      { q with body := b }.resultOf env.config = { q with body := b' }.resultOf env.config := by
    funext p
    unfold Query.resultOf ResultSet.asDocument
    rw [hrow hb, hrow hb']
    rfl
  have hbody :
      (withCtes q.ctes (b.project (Nested.within k))).outcome env { c with depth := c.depth + 1 } =
      (withCtes q.ctes (b'.project (Nested.within k))).outcome env
        { c with depth := c.depth + 1 } := by
    unfold withCtes
    rw [outcome_between, outcome_between]
    exact congrArg (fun o => (o.1, o.2.popCtes)) h
  have hset :
      ({ q with body := b }.resolveWith (Nested.within k)).outcome env
        { c with depth := c.depth + 1 } =
      ({ q with body := b' }.resolveWith (Nested.within k)).outcome env
        { c with depth := c.depth + 1 } := by
    rw [outcome_resolveWith, outcome_resolveWith, hresult, ← bind_pure_comp, ← bind_pure_comp,
      outcome_bind, outcome_bind, hbody]
  change (opening _).outcome env c = (opening _).outcome env c
  rw [outcome_opening, outcome_opening, outcome_between, outcome_between, hset]

/-- Set operations over bodies with equally many columns may be regrouped, and the query
has the same outcome. However operands are grouped, their projections make up that of the
whole: its columns are those of the first operand, each as often null as the columns that
any operand has in its place. -/
theorem setOp_regrouped (env : Env) (k : Nat) (c : Context) :
    (∀ (q : Query) (left middle right : Body) (op₁ op₂ : SetOp),
      Body.SameWidth (Nested.within k) env (c.inside q) [left, middle, right] →
      ((Nested.within (k + 1)).query
        { q with body := .setOp op₂ (.setOp op₁ left middle) right }).outcome env c =
        ((Nested.within (k + 1)).query
          { q with body := .setOp op₁ left (.setOp op₂ middle right) }).outcome env c) ∧
    ∀ (g : Grouping Body) (first : Projection) (rest : List Projection) (c' : Context),
      (g.operands.mapM (Body.project (Nested.within k))).outcome env c = (.ok (first :: rest), c') →
      Projection.SameWidth (first :: rest) →
      ∃ p, (g.body.project (Nested.within k)).outcome env c = (.ok p, c') ∧
        p.columns = first.columns.mapIdx fun i column =>
          { column with isNullable := anyNullable ((first :: rest).map (·.nullableAt i)) } := by
  constructor
  · intro q left middle right op₁ op₂ hwidth
    refine outcome_query_congr rfl rfl ?_
    have hl :=
      outcome_project_body (.setOp op₂ (.setOp op₁ (.operand left) (.operand middle))
        (.operand right)) hwidth
    have hr :=
      outcome_project_body (.setOp op₁ (.operand left)
        (.setOp op₂ (.operand middle) (.operand right))) hwidth
    exact hl.trans hr.symm
  · intro g first rest c' h hwidth
    refine ⟨.joined (first :: rest), ?_, rfl⟩
    rw [outcome_project_body g]
    · exact outcome_map_eq_ok.2 ⟨_, h, rfl⟩
    · intro ps c₁ hps
      cases h.symm.trans hps
      exact hwidth

/-- `SELECT value, …`. -/
private def literalRow (values : List Literal) : Body :=
  .select ⟨false, none, values.map fun value => .expr (.literal value) none, none, [],
    none, [], none⟩

/-- `SELECT 1, 2`, `SELECT 3, NULL` and `SELECT 4, 5`, put together from
the left and from the right. -/
theorem setOp_regrouped_literals :
    let env : Env := ⟨.builtinOnly {}, {}⟩
    let left := literalRow [.int 1, .int 2]
    let middle := literalRow [.int 3, .null]
    let right := literalRow [.int 4, .int 5]
    let leftwards : Body := .setOp .except (.setOp .union left middle) right
    let rightwards : Body := .setOp .union left (.setOp .except middle right)
    ((Nested.within 2).query ⟨leftwards, [], [], none, none⟩).outcome env {} =
        ((Nested.within 2).query ⟨rightwards, [], [], none, none⟩).outcome env {} ∧
      ∃ p c', (leftwards.project (Nested.within 1)).outcome env {} = (.ok p, c') ∧
        p.columns.map (·.isNullable) = [some false, some true] := by
  intro env left middle right leftwards rightwards
  let first : Projection := ⟨[Literal.column (.int 1), Literal.column (.int 2)], false⟩
  let rest : List Projection :=
    [⟨[Literal.column (.int 3), Literal.column .null], false⟩,
      ⟨[Literal.column (.int 4), Literal.column (.int 5)], false⟩]
  have hrun (c : Context) :
      ([left, middle, right].mapM (Body.project (Nested.within 1))).outcome env c =
      (.ok (first :: rest), c) := by rfl
  have hwidth : Projection.SameWidth (first :: rest) := by
    have htwo : ∀ p ∈ first :: rest, p.columns.length = 2 := by simp [first, rest]
    exact fun p hp q hq => (htwo p hp).trans (htwo q hq).symm
  obtain ⟨hquery, hproject⟩ := setOp_regrouped env 1 {}
  have hequal :
      Body.SameWidth (Nested.within 1) env (({} : Context).inside ⟨left, [], [], none, none⟩)
      [left, middle, right] := by
    intro ps c' hps
    cases (hrun _).symm.trans hps
    exact hwidth
  refine ⟨hquery ⟨left, [], [], none, none⟩ left middle right .union .except hequal, ?_⟩
  let g : Grouping Body :=
    .setOp .except (.setOp .union (.operand left) (.operand middle)) (.operand right)
  obtain ⟨p, hp, hcolumns⟩ := hproject g first rest {} (hrun {}) hwidth
  refine ⟨p, {}, hp, ?_⟩
  rw [hcolumns]
  rfl

end Analysis

end ResultShape
