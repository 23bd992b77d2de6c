import ResultShape.Proofs.Analysis.Naming
import ResultShape.Proofs.Analysis.Projection
import ResultShape.Proofs.Analysis.Stays
import ResultShape.Proofs.Analysis.Values
/-! Aggregate marks: a column carries the name of an aggregate where its value is a call of one.
Nothing that is put around the call carries the mark outward, but for a scalar subquery that is
flattened into its only column. -/
namespace ResultShape

/-- Parentheses aside, the expression is a call of a registered aggregate, without a
schema and without a window. -/
inductive Expr.CallsAggregate (a : String) (e : Expr) : Prop where
  | intro {name : Name} {args : List Expr} {distinct : Bool}
    (he : e.unnested = .call name args distinct false) (hs : name.schema = none)
    (hn : Text.fold name.name = a) (ha : AggregateRegistry.standard.isAggregate a = true)

/-- The expression calls the aggregate, or it is a scalar subquery with an
item that leads to such a call. -/
inductive Expr.LeadsTo : Expr → String → Prop where
  | call {e : Expr} {a : String} (h : e.CallsAggregate a) : e.LeadsTo a
  | subquery {e value : Expr} {aliasName : Option String} {q : Query} {a : String}
    (he : e.unnested = .subquery q) (hi : .expr value aliasName ∈ q.firstSelect.items)
    (h : value.LeadsTo a) : e.LeadsTo a

/-- One of the items leads to a call of the aggregate. -/
def Item.AnyLeadsTo (items : List Item) (a : String) : Prop :=
  ∃ value aliasName, .expr value aliasName ∈ items ∧ value.LeadsTo a

/-- The rule of a call is that of aggregates exactly for the registered names. -/
theorem BuiltinRule.ofCall?_eq_aggregate_iff (name : Name) :
    ofCall? name = some .aggregate ↔
      name.schema = none ∧ AggregateRegistry.standard.isAggregate (Text.fold name.name) = true := by
  have hfold : AggregateRegistry.standard.isAggregate (Text.fold name.name) =
      AggregateRegistry.standard.isAggregate name.name := by
    rw [AggregateRegistry.isAggregate, AggregateRegistry.get?, Text.fold_fold]
    rfl
  -- The table has no entry for aggregates.
  have htable : ∀ key, table.lookup key ≠ some .aggregate := by
    intro key hkey
    obtain ⟨before, after, htable, -⟩ := List.lookup_eq_some_iff.1 hkey
    have hm : (key, aggregate) ∈ table := htable ▸ List.mem_append_right _ List.mem_cons_self
    have hall : ∀ p ∈ table, p.2 ≠ aggregate := by decide
    exact hall _ hm rfl
  rw [hfold, ofCall?, ofName?]
  cases name.schema with
  | some schema => simp
  | none => cases AggregateRegistry.standard.isAggregate name.name <;> simp [htable]

theorem Entry.aggregate_project (e : Entry) (name : String) :
    (e.project name).aggregate = none := by
  unfold Entry.project
  split <;> rfl

private theorem Entry.aggregate_of_projectAll? {e : Entry} {columns : List ResultColumn}
    (h : e.projectAll? = some columns) : ∀ c ∈ columns, c.aggregate = none := by
  obtain ⟨m, -, rfl⟩ := Option.map_eq_some_iff.1 h
  exact List.forall_mem_map.2 fun _ _ => rfl

namespace ScopeStack

variable {catalog : Catalog} {stack : ScopeStack}

private theorem exists_project_of_through {name : String} {es : List Entry} {c : ResultColumn}
    (h : ColumnLookup.through name es = .found c) : ∃ e : Entry, c = e.project name := by
  unfold ColumnLookup.through at h
  split at h <;> cases h
  exact ⟨_, rfl⟩

/-- A column that a reference finds is read through an entry. -/
theorem exists_project_of_lookup {ref : ColumnRef} {c : ResultColumn}
    (h : (lookup catalog ref stack).1 = .found c) :
    ∃ e : Entry, c = e.project ref.name := by
  unfold lookup at h
  split at h
  · rename_i qualifier _
    induction stack with
    | nil => cases h
    | cons s rest ih =>
      unfold lookupQualified at h
      split at h
      · exact exists_project_of_through h
      · exact ih h
  · unfold lookupUnqualified at h
    split at h
    all_goals exact exists_project_of_through h

/-- The columns that a star stands for are read through entries, so none is marked. -/
theorem aggregate_of_expand {qualifier : Option String} {columns : List ResultColumn}
    (h : (expand catalog qualifier stack).1 = some columns) :
    ∀ c ∈ columns, c.aggregate = none := by
  cases stack with
  | nil => cases h
  | cons s rest =>
    cases qualifier with
    | some qualifier =>
      simp only [expand] at h
      split at h
      · obtain ⟨e, -, he⟩ := Option.bind_eq_some_iff.1 h
        exact Entry.aggregate_of_projectAll? he
      · cases h
    | none =>
      simp only [expand, expandAll] at h
      split at h
      · cases h
      · cases h
        intro c hc
        obtain ⟨columns, hcolumns, hc⟩ := List.mem_flatten.1 hc
        obtain ⟨e, -, he⟩ := List.mem_filterMap.1 hcolumns
        exact Entry.aggregate_of_projectAll? he c hc

end ScopeStack

namespace Analysis

/-- The action never comes to a marked column. -/
abbrev Unmarked (x : Analysis ResultColumn) : Prop := Returns (·.aggregate = none) x

private theorem unmarked_columnRef (ref : ColumnRef) : Unmarked (columnRef ref) := by
  unfold columnRef
  split
  · exact .pure rfl
  · have hfound : Returns (fun found : ColumnLookup => ∀ c, found = .found c → c.aggregate = none)
        (fromScopes fun catalog => ScopeStack.lookup catalog ref) := by
      refine .fromScopes fun catalog stack column hcolumn => ?_
      obtain ⟨e, rfl⟩ := ScopeStack.exists_project_of_lookup hcolumn
      exact e.aggregate_project ref.name
    refine hfound.andThen fun found hf => ?_
    cases found with
    | found column => exact .pure (hf column rfl)
    | ambiguous | unresolved => exact .pure rfl

private theorem unmarked_star (qualifier : Option String) :
    Returns (fun cs => ∀ c ∈ cs, c.aggregate = none) (star qualifier) := by
  have hexpand : Returns
      (fun found : Option (List ResultColumn) => ∀ cs, found = some cs →
        ∀ c ∈ cs, c.aggregate = none)
      (fromScopes fun catalog => ScopeStack.expand catalog qualifier) :=
    .fromScopes fun catalog stack cs hcs => ScopeStack.aggregate_of_expand hcs
  refine hexpand.andThen fun found hf => .pure ?_
  cases found with
  | none => exact List.forall_mem_singleton.2 rfl
  | some cs => exact hf cs rfl

private theorem aggregate_conditional (branches : List ResultColumn.Candidate) (hasElse : Bool) :
    (ResultColumn.conditional branches hasElse).aggregate = none := by
  unfold ResultColumn.conditional
  dsimp only
  split <;> rfl

/-- A value of its own that is no aggregate. -/
private theorem Unmarked.of_value {x : Analysis ResultColumn}
    (h : Returns (ResultColumn.IsValue none) x) : Unmarked x :=
  h.imp fun _ hc => hc.aggregate_eq

private theorem unmarked_builtinCall {name : Name} {windowed : Bool} {args : List (Expr × Meaning)}
    {rule : BuiltinRule} (h : rule = .aggregate → windowed = true) :
    Unmarked (builtinCall name windowed args rule) := by
  cases rule with
  | aggregate =>
    rw [h rfl]
    exact .of_value (returns_aggregateCall name true args.head?)
  | fixed sqlType isNullable => exact .of_value (returns_fixedCall name sqlType isNullable _)
  | passThrough argument =>
    simp only [builtinCall]
    split
    · exact .bind fun _ => .pure rfl
    · exact .pure rfl
  | unboundedText => exact .pure rfl
  | jsonQuery => cases args <;> exact .bind fun _ => .pure rfl
  | isNull | coalesce => exact .bind fun _ => .pure rfl
  | nullif =>
    simp only [builtinCall]
    split
    · exact .bind fun _ => .bind fun _ => .pure rfl
    · exact .pure rfl

end Analysis

open Analysis

namespace Expr

variable {e : Expr} {a : String}

/-- A call of an aggregate is marked with its name, and there is no document inside it. -/
theorem CallsAggregate.returns (h : e.CallsAggregate a) (n : Nested) :
    Returns (fun c => c.aggregate = some a ∧ c.json = none ∧ c.children = []) (e.resolve n) := by
  obtain ⟨he, hs, rfl, ha⟩ := h
  rw [← resolve_unnested, he, resolve_call, call_eq,
    (BuiltinRule.ofCall?_eq_aggregate_iff _).2 ⟨hs, ha⟩]
  refine (returns_aggregateCall _ false _).imp fun _ hc => ?_
  cases hc
  exact ⟨rfl, rfl, rfl⟩

/-- No expression but a call of an aggregate and a scalar subquery is
marked, whatever its parts are. -/
theorem unmarked (hcall : ∀ a, ¬e.CallsAggregate a) (hquery : ∀ q, e.unnested ≠ .subquery q)
    (n : Nested) :
    Unmarked (e.resolve n) := by
  rw [← resolve_unnested]
  cases he : e.unnested with
  | column ref => exact unmarked_columnRef ref
  | literal value => exact .pure (ResultColumn.isValue_literal value).aggregate_eq
  | var name => exact .of_value (returns_variableColumn name)
  | cast kind operand target => exact .bind fun _ => .bind fun _ => .pure rfl
  | call name args distinct windowed =>
    rw [resolve_call, call_eq]
    cases hrule : BuiltinRule.ofCall? name with
    | none => exact .bind fun _ => .pure rfl
    | some rule =>
      refine unmarked_builtinCall fun hr => ?_
      subst hr
      obtain ⟨hs, ha⟩ := (BuiltinRule.ofCall?_eq_aggregate_iff name).1 hrule
      cases windowed with
      | true => rfl
      | false => exact absurd ⟨he, hs, rfl, ha⟩ (hcall _)
  | iif | case => exact .bind fun _ => .pure (aggregate_conditional _ _)
  | binary op left right =>
    rw [resolve_binary]
    exact .bind fun _ => .bind fun _ => .pure (ResultColumn.isValue_binary _ _ _).aggregate_eq
  | unary op operand => exact .bind fun _ => .pure (ResultColumn.isValue_unary _ _).aggregate_eq
  | coalesce args => exact .bind fun _ => .pure rfl
  | nullif left right => exact .bind fun _ => .bind fun _ => .pure rfl
  | subquery q => exact absurd he (hquery q)
  | paren inner => exact absurd he (e.unnested_ne_paren inner)
  | star | «exists» | isNull | inList | other => exact .pure rfl

end Expr

/-- There is no document inside a marked column, and its mark has the property. -/
def ResultColumn.MarkedBy (P : String → Prop) (c : ResultColumn) : Prop :=
  ∀ a, c.aggregate = some a → c.json = none ∧ c.children = [] ∧ P a

namespace ResultColumn.MarkedBy

variable {P Q : String → Prop} {c : ResultColumn} {cs : List ResultColumn} {set : ResultSet}

theorem of_unmarked (h : c.aggregate = none) : c.MarkedBy P := by
  intro a ha
  rw [h] at ha
  cases ha

theorem imp (h : c.MarkedBy P) (hq : ∀ a, P a → Q a) : c.MarkedBy Q := by
  intro a ha
  obtain ⟨hjson, hchildren, hp⟩ := h a ha
  exact ⟨hjson, hchildren, hq a hp⟩

theorem assignNames (h : ∀ c ∈ cs, c.MarkedBy P) :
    ∀ c ∈ ResultColumn.assignNames cs, c.MarkedBy P := by
  -- The property does not look at names, and nothing else is assigned.
  have hmap := map_assignNames (f := MarkedBy P) (fun _ _ => rfl) cs
  intro c hc
  have hm : c.MarkedBy P ∈ (ResultColumn.assignNames cs).map (MarkedBy P) := List.mem_map_of_mem hc
  rw [hmap] at hm
  obtain ⟨d, hd, hsame⟩ := List.mem_map.1 hm
  exact hsame.mp (h d hd)

theorem union {left : Projection} (h : ∀ c ∈ left.columns, c.MarkedBy P) (right : Projection) :
    ∀ c ∈ (left.union right).columns, c.MarkedBy P := by
  intro c hc
  obtain ⟨i, hi, rfl⟩ := List.mem_mapIdx.1 hc
  have hleft := h _ (List.getElem_mem hi)
  split <;> exact hleft

/-- The mark of a result set's only column is kept where the result set is no document. -/
theorem aggregate_ofSubquery_iff (h : ∀ c ∈ set.columns, c.MarkedBy P) (a : String) :
    (ResultColumn.ofSubquery set).aggregate = some a ↔
      set.returnsJson = false ∧ set.columns.map (·.aggregate) = [some a] := by
  unfold ResultColumn.ofSubquery
  cases set.returnsJson with
  | true => simp
  | false =>
    rw [if_neg Bool.false_ne_true]
    rcases hcolumns : set.columns with _ | ⟨single, _ | ⟨second, rest⟩⟩
    · simp
    · rw [hcolumns, List.forall_mem_singleton] at h
      dsimp only
      split
      · simp
      · rename_i hnested
        have hunmarked : single.aggregate ≠ some a := by
          intro ha
          obtain ⟨hjson, hchildren, -⟩ := h a ha
          simp [hjson, hchildren] at hnested
        simpa using hunmarked
    · simp

theorem ofSubquery (h : ∀ c ∈ set.columns, c.MarkedBy P) :
    (ResultColumn.ofSubquery set).MarkedBy P := by
  unfold ResultColumn.ofSubquery
  split
  · exact of_unmarked rfl
  · split
    · rename_i single hcolumns
      rw [hcolumns, List.forall_mem_singleton] at h
      split
      · exact h
      · exact of_unmarked rfl
    · exact of_unmarked rfl

end ResultColumn.MarkedBy

namespace Analysis

variable {k : Nat}

private theorem markedBy_projectAll
    (h : ∀ e : Expr, Returns (ResultColumn.MarkedBy e.LeadsTo) (e.resolve (.within k)))
    (items : List Item) :
    Returns (fun p => ∀ c ∈ p.columns, c.MarkedBy (Item.AnyLeadsTo items))
      (Item.projectAll (.within k) items) := by
  have hitem : ∀ i ∈ items,
      Returns (fun cs => ∀ c ∈ cs, c.MarkedBy (Item.AnyLeadsTo items)) (i.columns (.within k)) := by
    intro i hi
    cases i with
    | expr value aliasName =>
      refine (h value).andThen fun c hc => .pure (List.forall_mem_singleton.2 ?_)
      exact hc.imp fun a ha => ⟨value, aliasName, hi, ha⟩
    | star qualifier =>
      exact (unmarked_star qualifier).imp fun cs hcs c hc => .of_unmarked (hcs c hc)
    | assign name value => exact .pure (List.forall_mem_nil _)
  exact (Returns.mapM hitem).andThen fun columns hcolumns =>
    .pure (List.forall_mem_flatten.2 hcolumns)

private theorem markedBy_query
    (h : ∀ j < k, ∀ e : Expr, Returns (ResultColumn.MarkedBy e.LeadsTo) (e.resolve (.within j)))
    (q : Query) :
    Returns (fun set => ∀ c ∈ set.columns, c.MarkedBy (Item.AnyLeadsTo q.firstSelect.items))
      ((Nested.within k).query q) := by
  have hitems := fun j hj => markedBy_projectAll (h j hj) q.firstSelect.items
  have hset :=
    Query.returns_of_firstSelect (P := fun cs =>
      ∀ c ∈ cs, c.MarkedBy (Item.AnyLeadsTo q.firstSelect.items))
    (fun _ => .assignNames) (fun _ right hl => .union hl right) hitems
  refine hset.imp ?_
  rintro set ⟨cs, hcs, hcolumns⟩
  rw [hcolumns]
  exact .assignNames hcs

/-- A mark leads to a call of an aggregate. The induction is on how many queries may still be
opened: a scalar subquery has the mark of one of its items, which is resolved with fewer. -/
private theorem markedBy_resolve (k : Nat) (e : Expr) :
    Returns (ResultColumn.MarkedBy e.LeadsTo) (e.resolve (.within k)) := by
  induction k using Nat.strongRecOn generalizing e with
  | ind k ih =>
    by_cases hquery : ∃ q, e.unnested = .subquery q
    · obtain ⟨q, he⟩ := hquery
      intro env c column c' h
      obtain ⟨set, hset, rfl⟩ := (Expr.outcome_resolve_subquery he).1 h
      refine .imp (.ofSubquery (markedBy_query ih q env c set c' hset)) ?_
      rintro a ⟨value, aliasName, hi, hl⟩
      exact .subquery he hi hl
    · rw [not_exists] at hquery
      by_cases hcall : ∃ a, e.CallsAggregate a
      · obtain ⟨a, ha⟩ := hcall
        refine (ha.returns _).imp ?_
        rintro column ⟨hmark, hjson, hchildren⟩ b hb
        cases hmark.symm.trans hb
        exact ⟨hjson, hchildren, .call ha⟩
      · exact (Expr.unmarked (not_exists.1 hcall) hquery _).imp fun _ => .of_unmarked

end Analysis

namespace Expr

/-- A column is marked as an aggregate exactly if the expression calls it, or is a scalar subquery
with a result set that is no document and has one column, which is marked so. So every mark leads
through scalar subqueries alone to a call of the aggregate. -/
theorem aggregate_of_resolve {env : Env} {c c' : Context} {k : Nat} {e : Expr}
    {column : ResultColumn}
    (h : (e.resolve (.within k)).outcome env c = (.ok column, c')) (a : String) :
    (column.aggregate = some a ↔ e.CallsAggregate a ∨
        ∃ q set c₁, e.unnested = .subquery q ∧
          ((Nested.within k).query q).outcome env c = (.ok set, c₁) ∧
          set.returnsJson = false ∧ set.columns.map (·.aggregate) = [some a]) ∧
      (column.aggregate = some a → e.LeadsTo a) := by
  have hmark := markedBy_resolve k e env c column c' h a
  refine ⟨?_, fun ha => (hmark ha).2.2⟩
  by_cases hquery : ∃ q, e.unnested = .subquery q
  -- What a subquery comes to in the context is determined, so the result set is that of the column.
  · obtain ⟨q, he⟩ := hquery
    obtain ⟨set, hset, rfl⟩ := (outcome_resolve_subquery he).1 h
    have hcolumns := markedBy_query (fun j _ => markedBy_resolve j) q env c set c' hset
    rw [ResultColumn.MarkedBy.aggregate_ofSubquery_iff hcolumns]
    constructor
    · exact fun ha => .inr ⟨q, set, c', he, hset, ha⟩
    · rintro (⟨hcall, -⟩ | ⟨q', set', c₁, he', hset', ha⟩)
      · cases he.symm.trans hcall
      · cases he.symm.trans he'
        cases hset.symm.trans hset'
        exact ha
  · constructor
    · intro ha
      cases (hmark ha).2.2 with
      | call hcall => exact .inl hcall
      | subquery he => exact absurd ⟨_, he⟩ hquery
    · rintro (hcall | ⟨q, -, -, he, -⟩)
      · exact (hcall.returns _ env c column c' h).1
      · exact absurd ⟨q, he⟩ hquery

/-- `((SELECT COUNT(*)))`. -/
private def countSubquery : Expr :=
  .paren (.subquery
    ⟨.select
      ⟨false, none, [.expr (.call (.bare "COUNT") [.star] false false) none],
        none, [], none, [], none⟩,
      [], [], none, none⟩)

private theorem not_callsAggregate_countSubquery (a : String) :
    ¬countSubquery.CallsAggregate a := by
  rintro ⟨he, -⟩
  cases he

theorem aggregate_of_resolve_countSubquery :
    let env : Env := ⟨.builtinOnly {}, {}⟩
    (countSubquery.resolve (.within 1)).outcome env {} =
        (.ok { name := "Column1", sqlType := some .int, isNullable := some false,
               aggregate := some "count" }, {}) ∧
      (∃ q set c₁, countSubquery.unnested = .subquery q ∧
        ((Nested.within 1).query q).outcome env {} = (.ok set, c₁) ∧ set.returnsJson = false ∧
          set.columns.map (·.aggregate) = [some "count"]) ∧
      countSubquery.LeadsTo "count" := by
  intro env
  have h : (countSubquery.resolve (.within 1)).outcome env {} =
      (.ok { name := "Column1", sqlType := some .int, isNullable := some false,
             aggregate := some "count" }, {}) := rfl
  obtain ⟨hiff, hleads⟩ := aggregate_of_resolve h "count"
  exact ⟨h, (hiff.1 rfl).resolve_left (not_callsAggregate_countSubquery "count"), hleads rfl⟩

/-- The subquery is marked as the aggregate inside it, which it is no call of. -/
theorem countSubquery_marked :
    ¬∀ (env : Env) (c c' : Context) (k : Nat) (e : Expr) (column : ResultColumn),
      (e.resolve (.within k)).outcome env c = (.ok column, c') →
        ∀ a, column.aggregate = some a ↔ e.CallsAggregate a := by
  intro hmarks
  have hcount := hmarks ⟨.builtinOnly {}, {}⟩ {} {} 1 countSubquery _ rfl "count"
  exact not_callsAggregate_countSubquery "count" (hcount.1 rfl)

end Expr

end ResultShape
