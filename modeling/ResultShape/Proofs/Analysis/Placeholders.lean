import ResultShape.Proofs.Analysis.Collisions
import ResultShape.Proofs.Analysis.Projection
import ResultShape.Proofs.Analysis.Stays
import ResultShape.Proofs.Analysis.Values
/-! Placeholder names: a value that has no name asks to be named by its position. One that comes out
of a scalar subquery was named there already, by its position in the subquery. -/
namespace ResultShape

/-- No value that the expression may give has a name of its own; a scalar subquery
gives that of its only item. -/
inductive Expr.Unnamed : Expr → Prop where
  | value {e : Expr} (h : e.makesValue = true) : e.Unnamed
  | paren {inner : Expr} (h : inner.Unnamed) : (Expr.paren inner).Unnamed
  | cast {kind : CastKind} {operand : Expr} {target : DataType} (h : operand.Unnamed) :
    (Expr.cast kind operand target).Unnamed
  | iif {condition yes no : Expr} (hy : yes.Unnamed) (hn : no.Unnamed) :
      (Expr.iif condition yes no).Unnamed
  | case {operand : Option Expr} {branches : List Branch} {otherwise : Option Expr}
    (h : ∀ e ∈ Expr.results branches otherwise, e.Unnamed) :
      (Expr.case operand branches otherwise).Unnamed
  | subquery {q : Query} {value : Expr} (hi : q.firstSelect.items = [.expr value none])
    (h : value.Unnamed) : (Expr.subquery q).Unnamed

/-- The value of the expression may be that of the scalar subquery. -/
inductive Expr.MayGive (q : Query) : Expr → Prop where
  | subquery : MayGive q (.subquery q)
  | paren {inner : Expr} (h : inner.MayGive q) : MayGive q (.paren inner)
  | cast {kind : CastKind} {operand : Expr} {target : DataType} (h : operand.MayGive q) :
    MayGive q (.cast kind operand target)
  | yes {condition yes no : Expr} (h : yes.MayGive q) : MayGive q (.iif condition yes no)
  | no {condition yes no : Expr} (h : no.MayGive q) : MayGive q (.iif condition yes no)
  | case {operand : Option Expr} {branches : List Branch} {otherwise : Option Expr} {e : Expr}
    (he : e ∈ Expr.results branches otherwise) (h : e.MayGive q) :
      MayGive q (.case operand branches otherwise)

namespace ResultColumn

/-- The name that a position gives. -/
def placeholder (position : Nat) : String := "Column" ++ toString (position + 1)

/-- An item without an alias leaves the alias of its value. -/
private theorem unaliased (c : ResultColumn) :
    { c with aliasName := none.or c.aliasName } = c := by cases c; rfl

/-- The column has no name, but for one that the first position gave it. -/
structure Nameless (c : ResultColumn) : Prop where
  aliasName : c.aliasName = none
  source : c.source = none
  aliasTable : c.aliasTable = none
  reference : c.reference = none
  name : c.name = "" ∨ c.name = placeholder 0

namespace Nameless

variable {c : ResultColumn}

theorem of_value {aggregate : Option String} (h : c.IsValue aggregate) : c.Nameless := by
  cases h
  exact ⟨rfl, rfl, rfl, rfl, .inl rfl⟩

theorem candidate_eq (h : c.Nameless) (position : Nat) :
    c.candidate position = if c.name = "" then placeholder position else placeholder 0 := by
  obtain ⟨ha, hs, ht, hr, hn⟩ := h
  unfold candidate
  rw [ha, sourceColumn, hs, ht, hr]
  rcases hn with hn | hn <;> rw [hn] <;> rfl

/-- The only column of a result set is named by the first position. -/
theorem assignNames_singleton (h : c.Nameless) :
    assignNames [c] = [{ c with name := placeholder 0 }] := by
  have hname : c.candidate 0 = placeholder 0 := by rw [h.candidate_eq, ite_self]
  simp only [assignNames, assignFrom, hname]
  rfl

theorem named (h : c.Nameless) : Nameless { c with name := placeholder 0 } :=
  ⟨h.aliasName, h.source, h.aliasTable, h.reference, .inr rfl⟩

/-- A scalar subquery over the column is named by the first position if it is flattened,
and has no name if it is not. -/
theorem ofSubquery (h : c.Nameless) {set : ResultSet} (hc : set.columns = assignNames [c]) :
    (ResultColumn.ofSubquery set).Nameless ∧ (ResultColumn.ofSubquery set).name =
      if (ResultColumn.ofSubquery set).json.isNone && (ResultColumn.ofSubquery set).children.isEmpty
      then placeholder 0 else "" := by
  rw [h.assignNames_singleton] at hc
  unfold ResultColumn.ofSubquery
  cases set.returnsJson with
  | true => exact ⟨⟨rfl, rfl, rfl, rfl, .inl rfl⟩, rfl⟩
  | false =>
    rw [if_neg Bool.false_ne_true, hc]
    dsimp only
    split
    · rename_i hflat
      rw [Bool.and_comm, if_pos hflat]
      exact ⟨⟨rfl, h.source, h.aliasTable, h.reference, .inr rfl⟩, rfl⟩
    · exact ⟨⟨rfl, rfl, rfl, rfl, .inl rfl⟩, rfl⟩

/-- One of several branches has the name of one of them, or none. -/
theorem conditional {branches : List Candidate} (h : ∀ b ∈ branches, b.column.Nameless)
    (hasElse : Bool) :
    (ResultColumn.conditional branches hasElse).Nameless ∧
    ((ResultColumn.conditional branches hasElse).name = "" ∨
      ∃ b ∈ branches, (ResultColumn.conditional branches hasElse).name = b.column.name) := by
  unfold ResultColumn.conditional
  dsimp only
  split
  · exact ⟨⟨rfl, rfl, rfl, rfl, .inl rfl⟩, .inl rfl⟩
  · rename_i first rest hbranches
    have hmem : first.primary rest ∈ branches :=
      List.mem_of_mem_filter (p := (!·.isNullLiteral)) (hbranches ▸ first.primary_mem rest)
    have hb := h _ hmem
    exact ⟨⟨rfl, hb.source, hb.aliasTable, hb.reference, hb.name⟩, .inr ⟨_, hmem, rfl⟩⟩

end Nameless

/-- There is one column, and it has no name. -/
def OneNameless (cs : List ResultColumn) : Prop := ∃ c : ResultColumn, c.Nameless ∧ cs = [c]

namespace OneNameless

theorem assignNames {cs : List ResultColumn} (h : OneNameless cs) :
    OneNameless (ResultColumn.assignNames cs) := by
  obtain ⟨c, hc, rfl⟩ := h
  exact ⟨_, hc.named, hc.assignNames_singleton⟩

theorem union {left : Projection} (h : OneNameless left.columns) (right : Projection) :
    OneNameless (left.union right).columns := by
  obtain ⟨c, hc, hleft⟩ := h
  simp only [OneNameless, Projection.union, hleft, List.mapIdx_cons, List.mapIdx_nil]
  refine ⟨_, ?_, rfl⟩
  split
  · exact ⟨hc.aliasName, hc.source, hc.aliasTable, hc.reference, hc.name⟩
  · exact hc

end OneNameless

end ResultColumn

open Analysis

namespace Expr

/-- The column has no name, but for one that a scalar subquery gave it. -/
def GivesNameless (e : Expr) (c : ResultColumn) : Prop :=
  c.Nameless ∧ (c.name = "" ∨ ∃ q, e.MayGive q)

/-- A conditional gives what one of its branches gives. -/
theorem givesNameless_ofBranches {n : Nested} {es : List Expr}
    (h : ∀ e ∈ es, Returns e.GivesNameless (e.resolve n))
    (hasElse : Bool) {whole : Expr} (hwhole : ∀ e ∈ es, ∀ q, e.MayGive q → whole.MayGive q) :
    Returns whole.GivesNameless
      (Meaning.ofBranches (es.map fun e => (e, e.meaning n)) hasElse).column := by
  have hcandidates : ∀ b ∈ es.map fun e => (e, e.meaning n),
      Returns (fun b : ResultColumn.Candidate => whole.GivesNameless b.column)
        (do return (⟨b.1, ← b.2.column⟩ : ResultColumn.Candidate)) := by
    refine List.forall_mem_map.2 fun e he => (h e he).andThen fun c hc => .pure ?_
    exact ⟨hc.1, hc.2.imp_right fun ⟨q, hq⟩ => ⟨q, hwhole e he q hq⟩⟩
  refine (Returns.mapM hcandidates).andThen fun branches hbranches => .pure ?_
  obtain ⟨hnameless, hname | ⟨b, hb, hname⟩⟩ :=
    ResultColumn.Nameless.conditional (fun b hb => (hbranches b hb).1) hasElse
  · exact ⟨hnameless, .inl hname⟩
  · exact ⟨hnameless, hname ▸ (hbranches b hb).2⟩

private theorem nameless_item {n : Nested} {value : Expr}
    (h : Returns value.GivesNameless (value.resolve n)) :
    Returns (fun p => ResultColumn.OneNameless p.columns)
      (Item.projectAll n [.expr value none]) := by
  have hitem : Returns ResultColumn.OneNameless ((Item.expr value none).columns n) :=
    h.andThen fun c hc => .pure ⟨c, hc.1, congrArg ([·]) c.unaliased⟩
  have hitems : Returns (fun columns => ResultColumn.OneNameless columns.flatten)
      ([Item.expr value none].mapM (Item.columns n)) := by
    rw [List.mapM_cons, List.mapM_nil]
    refine hitem.andThen fun own hown => ?_
    rw [pure_bind]
    exact .pure (by simpa using hown)
  exact hitems.andThen fun columns hcolumns => .pure hcolumns

/-- A query with one item, whose value has no name, has one column, which has none. -/
theorem nameless_query {q : Query} {value : Expr} (hi : q.firstSelect.items = [.expr value none])
    (h : ∀ k, Returns value.GivesNameless (value.resolve (.within k))) (k : Nat) :
    Returns (fun set => ∃ c : ResultColumn, c.Nameless ∧ set.columns = ResultColumn.assignNames [c])
      ((Nested.within k).query q) := by
  have hitems : ∀ j < k, Returns (fun p => ResultColumn.OneNameless p.columns)
      (Item.projectAll (.within j) q.firstSelect.items) := by
    intro j _
    rw [hi]
    exact nameless_item (h j)
  refine (Query.returns_of_firstSelect (fun _ => .assignNames) (fun _ right hl => .union hl right)
    hitems).imp ?_
  rintro set ⟨cs, ⟨c, hc, rfl⟩, hcolumns⟩
  exact ⟨c, hc, hcolumns⟩

/-- What is unnamed gives a column without a name, whatever queries may still be opened. The
induction is on the rules by which the expression is unnamed; the value of a scalar subquery is
resolved with fewer queries to open. -/
theorem Unnamed.returns {e : Expr} (h : e.Unnamed) (k : Nat) :
    Returns e.GivesNameless (e.resolve (.within k)) := by
  induction h generalizing k with
  | value h =>
    exact (returns_value h _).imp fun c ⟨_, hc⟩ => ⟨.of_value hc, .inl (by cases hc; rfl)⟩
  | @paren inner h ih =>
    exact (ih k).imp fun c hc => ⟨hc.1, hc.2.imp_right fun ⟨q, hq⟩ => ⟨q, .paren hq⟩⟩
  | cast h ih =>
    refine (ih k).andThen fun c hc => .bind fun _ => .pure ?_
    obtain ⟨⟨ha, hs, ht, hr, hn⟩, hq⟩ := hc
    exact ⟨⟨ha, hs, ht, hr, hn⟩, hq.imp_right fun ⟨q, hq⟩ => ⟨q, .cast hq⟩⟩
  | @iif condition yes no hy hn ihy ihn =>
    have hbranches : ∀ e ∈ [yes, no], Returns e.GivesNameless (e.resolve (.within k)) :=
      List.forall_mem_cons.2 ⟨ihy k, List.forall_mem_singleton.2 (ihn k)⟩
    refine givesNameless_ofBranches hbranches true ?_
    exact List.forall_mem_cons.2
      ⟨fun q hq => .yes hq, List.forall_mem_singleton.2 fun q hq => .no hq⟩
  | @case operand branches otherwise h ih =>
    rw [resolve, meaning, branchMeanings_append_otherwiseMeaning]
    exact givesNameless_ofBranches (fun e he => ih e he k) _ fun e he q hq => .case he hq
  | @subquery q value hi h ih =>
    intro env c column c' hcolumn
    obtain ⟨set, hset, rfl⟩ := (outcome_resolve_subquery rfl).1 hcolumn
    obtain ⟨c, hc, hcolumns⟩ := nameless_query hi ih k env _ set c' hset
    exact ⟨(hc.ofSubquery hcolumns).1, .inr ⟨q, .subquery⟩⟩

/-- Parentheses aside, a scalar subquery has one item, whose value has no name. -/
theorem Unnamed.of_subquery {e : Expr} {q : Query} (h : e.Unnamed) (he : e.unnested = .subquery q) :
    ∃ value, q.firstSelect.items = [.expr value none] ∧ value.Unnamed := by
  induction h with
  | @value e h =>
    cases e with
    | paren | subquery => cases h
    | _ => cases he
  | paren h ih => exact ih (by rwa [unnested_paren] at he)
  | subquery hi h =>
    cases he
    exact ⟨_, hi, h⟩
  | _ => cases he

end Expr

namespace Query

/-- In the result set of a `SELECT`, an item without an alias whose values have no name asks for the
name that its position gives. Only a value that is that of a scalar subquery may ask for the name
that the first position gives, whatever its own position; a scalar subquery itself does so exactly
if it is flattened into its only column. -/
theorem candidate_of_unnamed {env : Env} {c c' c₂ : Context} {k i : Nat} {q : Query} {s : Select}
    {value : Expr} {set : ResultSet} (hq : q.body = .select s)
    (h : ((Nested.within (k + 1)).query q).outcome env c = (.ok set, c'))
    (hi : s.ItemAt env k (c.inside q) (.expr value none) i c₂) (hvalue : value.Unnamed) :
    ∃ p c₁ column c₃ base, (q.body.project (.within k)).outcome env (c.inside q) = (.ok p, c₁) ∧
      set.columns = ResultColumn.assignNames p.columns ∧
      (value.resolve (.within k)).outcome env c₂ = (.ok column, c₃) ∧ p.columns[i]? = some column ∧
      (ResultColumn.candidates p.columns)[i]? = some base ∧
      (base = ResultColumn.placeholder i ∨ base = ResultColumn.placeholder 0 ∧
        ∃ inner, value.MayGive inner) ∧
      ∀ inner, value.unnested = .subquery inner →
        base = ResultColumn.placeholder
          (if column.json.isNone && column.children.isEmpty then 0 else i) := by
  obtain ⟨-, p, c₁, hp, rfl, -⟩ := outcome_query_eq_ok.1 h
  have hp' := hp
  rw [hq] at hp'
  obtain ⟨column, c₃, hcolumn, hplace⟩ := hi.expr hp'
  rw [column.unaliased] at hplace
  obtain ⟨hnameless, hname⟩ := hvalue.returns k env c₂ column c₃ hcolumn
  have hbase : (ResultColumn.candidates p.columns)[i]? = some (column.candidate i) := by
    rw [ResultColumn.getElem?_candidates, hplace]
    rfl
  refine ⟨p, c₁, column, c₃, column.candidate i, hp, q.columns_resultOf env.config p, hcolumn,
    hplace, hbase, ?_, ?_⟩
  · rw [hnameless.candidate_eq]
    split
    · exact .inl rfl
    · rename_i hnamed
      exact .inr ⟨rfl, hname.resolve_left hnamed⟩
  · intro inner he
    obtain ⟨v, hitems, hv⟩ := hvalue.of_subquery he
    obtain ⟨set, hset, rfl⟩ := (Expr.outcome_resolve_subquery he).1 hcolumn
    obtain ⟨c, hc, hcolumns⟩ := Expr.nameless_query hitems hv.returns k env c₂ set c₃ hset
    rw [hnameless.candidate_eq, (hc.ofSubquery hcolumns).2]
    split <;> rfl

private def ofItems (items : List Item) : Query :=
  ⟨.select ⟨false, none, items, none, [], none, [], none⟩, [], [], none, none⟩

/-- `SELECT 2`. -/
private def two : Query := ofItems [.expr (.literal (.int 2)) none]

/-- `SELECT 1 AS a, (SELECT 2)`. -/
private def oneAndSubquery : Query :=
  ofItems [.expr (.literal (.int 1)) (some "a"), .expr (.subquery two) none]

private theorem itemAt_subquery :
    oneAndSubquery.firstSelect.ItemAt ⟨.builtinOnly {}, {}⟩ 1 (Context.inside oneAndSubquery {})
      (.expr (.subquery two) none) 1 (Context.inside oneAndSubquery {}).pushScope := by
  let before : List Item := [.expr (.literal (.int 1)) (some "a")]
  have hb : (before.mapM (Item.columns (.within 1))).outcome ⟨.builtinOnly {}, {}⟩
      (Context.inside oneAndSubquery {}).pushScope =
        (.ok [[{ (Literal.int 1).column with
          aliasName := some "a" }]], (Context.inside oneAndSubquery {}).pushScope) := rfl
  have hi : oneAndSubquery.firstSelect.items = before ++ [.expr (.subquery two) none] := rfl
  exact .intro hi rfl hb

private theorem unnamed_subquery : (Expr.subquery two).Unnamed := .subquery rfl (.value rfl)

theorem candidate_of_unnamed_subquery :
    let env : Env := ⟨.builtinOnly {}, {}⟩
    let q := oneAndSubquery
    let value := Expr.subquery two
    ∃ set c', q.body = .select q.firstSelect ∧
      ((Nested.within 2).query q).outcome env {} = (.ok set, c') ∧
      q.firstSelect.ItemAt env 1 (Context.inside q {}) (.expr value none) 1
        (Context.inside q {}).pushScope ∧
      value.Unnamed ∧
      ∃ p c₁, (q.body.project (.within 1)).outcome env (Context.inside q {}) = (.ok p, c₁) ∧
        set.columns = ResultColumn.assignNames p.columns ∧
        (ResultColumn.candidates p.columns)[1]? = some (ResultColumn.placeholder 0) := by
  intro env q value
  have hset : ∃ set c', ((Nested.within 2).query q).outcome env {} = (.ok set, c') := ⟨_, _, rfl⟩
  obtain ⟨set, c', hset⟩ := hset
  obtain ⟨p, c₁, column, c₃, base, hp, hcolumns, hcolumn, -, hbase, -, hsubquery⟩ :=
    candidate_of_unnamed rfl hset itemAt_subquery unnamed_subquery
  refine ⟨set, c', rfl, hset, itemAt_subquery, unnamed_subquery, p, c₁, hp, hcolumns, ?_⟩
  cases hcolumn
  rw [hbase, hsubquery two rfl]
  rfl

/-- The second column asks for the name that its value had as the first column of the subquery. -/
theorem subquery_keeps_inner_position :
    ¬∀ (env : Env) (c c' c₁ c₂ : Context) (k i : Nat) (q : Query) (s : Select) (value : Expr)
      (set : ResultSet)
        (p : Projection), q.body = .select s →
        ((Nested.within (k + 1)).query q).outcome env c = (.ok set, c') →
      (q.body.project (.within k)).outcome env (c.inside q) = (.ok p, c₁) →
        s.ItemAt env k (c.inside q) (.expr value none) i c₂ → value.Unnamed →
          (ResultColumn.candidates p.columns)[i]? = some (ResultColumn.placeholder i) := by
  intro hposition
  have hname := hposition ⟨.builtinOnly {}, {}⟩ {} _ _ _ 1 1 oneAndSubquery _ (.subquery two) _ _
    rfl rfl rfl itemAt_subquery unnamed_subquery
  exact absurd hname (by decide)

end Query

end ResultShape
