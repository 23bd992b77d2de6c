import ResultShape.Proofs.Analysis.Forms
import ResultShape.Proofs.Analysis.Loading
import ResultShape.Proofs.Analysis.Success
import ResultShape.Proofs.Scope.Origin
/-! Projections: the column of a plain reference, and each one that a star stands for, is read
through the entry that owns it, whatever the items before it have loaded. -/
namespace ResultShape

/-- The origin of the column that a reference means; the word for what a
`MERGE` did is no column. -/
def ColumnRef.origin? (stack : ScopeStack) (ref : ColumnRef) : Option Origin :=
  if ref.qualifier.isNone && Text.same ref.name "$action" then none
  else (stack.owner? ref).map fun k => ⟨k, Text.fold ref.name⟩

/-- The origin of an expression that is a column reference, parentheses aside. -/
def Expr.origin? (stack : ScopeStack) (e : Expr) : Option Origin :=
  match e.unnested with
  | .column ref => ref.origin? stack
  | _ => none

/-- The origins of the columns that an item gives. -/
def Item.origins (stack : ScopeStack) : Item → List (Option Origin)
  | .expr value _ => [value.origin? stack]
  | .star qualifier => stack.starOrigins qualifier
  | .assign .. => []

/-- The origins of the columns that a block projects. -/
def Select.origins (stack : ScopeStack) (s : Select) : List (Option Origin) :=
  s.items.flatMap (·.origins stack)

open ScopeStack

/-- A name and an alias are no part of how a column is read. -/
private theorem ScopeStack.ReadFrom.of_unnamed_eq {stack : ScopeStack} {o : Option Origin}
    {c c' : ResultColumn}
    (h : ReadFrom stack o c) (hc : c'.unnamed = c.unnamed) : ReadFrom stack o c' :=
  fun k key e ho he => (h k key e ho he).of_unnamed_eq hc

theorem Expr.resolve_unnested (n : Nested) (e : Expr) : e.unnested.resolve n = e.resolve n :=
  congrArg Meaning.column (e.meaning_unnested n)

/-- A scalar subquery has the column that its result set comes to. -/
theorem Expr.outcome_resolve_subquery {e : Expr} {q : Query} (he : e.unnested = .subquery q)
    {n : Nested} {env : Env} {c c' : Context} {column : ResultColumn} :
    (e.resolve n).outcome env c = (.ok column, c') ↔
      ∃ set, (n.query q).outcome env c = (.ok set, c') ∧ ResultColumn.ofSubquery set = column := by
  rw [← Expr.resolve_unnested, he]
  exact Analysis.outcome_map_eq_ok

namespace Analysis

variable {env : Env} {c c' : Context}

private theorem readFrom_columnRef {ref : ColumnRef} {column : ResultColumn}
    (h : (columnRef ref).outcome env c = (.ok column, c')) :
    ReadFrom (c.scopes.load env.catalog) (ref.origin? (c.scopes.load env.catalog)) column := by
  unfold columnRef at h
  unfold ColumnRef.origin?
  split at h
  · rename_i ha
    rw [if_pos ha]
    exact readFrom_none _
  · rename_i ha
    rw [if_neg ha]
    obtain ⟨found, c₁, hf, h⟩ := outcome_bind_eq_ok.1 h
    rw [outcome_fromScopes] at hf
    obtain ⟨hfound, -⟩ := Prod.mk.inj hf
    have hlookup : (lookup env.catalog ref c.scopes).1 = found := Except.ok.inj hfound
    -- Where nothing is found, the reference has no owner.
    have hnone : (∀ column, found ≠ .found column) → ∀ column, ReadFrom (c.scopes.load env.catalog)
        (((c.scopes.load env.catalog).owner? ref).map fun k => ⟨k, Text.fold ref.name⟩) column := by
      intro hn column k key e ho he
      obtain ⟨k', hk, hkey⟩ := Option.map_eq_some_iff.1 ho
      cases hkey
      exact absurd (hlookup.symm.trans (lookup_of_owner hk he)) (hn _)
    split at h
    · cases h
      exact (readFrom_lookup hlookup).of_unnamed_eq rfl
    · exact hnone (fun _ h => by cases h) _
    · exact hnone (fun _ h => by cases h) _

private theorem readFrom_resolve {k : Nat} {e : Expr} {column : ResultColumn}
    (h : (e.resolve (Nested.within k)).outcome env c = (.ok column, c')) :
    ReadFrom (c.scopes.load env.catalog) (e.origin? (c.scopes.load env.catalog)) column := by
  rw [← Expr.resolve_unnested] at h
  unfold Expr.origin?
  split
  · rename_i ref href
    rw [href] at h
    exact readFrom_columnRef h
  · exact readFrom_none _

/-- The columns of an item are read from their origins. -/
private theorem readFrom_columns {k : Nat} {i : Item} {columns : List ResultColumn}
    (h : (i.columns (Nested.within k)).outcome env c = (.ok columns, c')) :
    List.Forall₂ (ReadFrom (c.scopes.load env.catalog))
      (i.origins (c.scopes.load env.catalog)) columns := by
  cases i with
  | expr value aliasName =>
    obtain ⟨column, c₁, hc, h⟩ := outcome_bind_eq_ok.1 h
    cases h
    exact .cons ((readFrom_resolve hc).of_unnamed_eq rfl) .nil
  | star qualifier =>
    obtain ⟨found, c₁, hf, h⟩ := outcome_bind_eq_ok.1 h
    cases h
    rw [outcome_fromScopes] at hf
    obtain ⟨hfound, -⟩ := Prod.mk.inj hf
    cases hfound
    exact readFrom_expand qualifier _
  | assign name value =>
    cases h
    exact .nil

private theorem readFrom_mapM {k : Nat} {items : List Item} {columns : List (List ResultColumn)}
    {stack : ScopeStack} (hs : c.scopes.load env.catalog = stack)
    (h : (items.mapM (Item.columns (Nested.within k))).outcome env c = (.ok columns, c')) :
    List.Forall₂ (ReadFrom stack) (items.flatMap (·.origins stack)) columns.flatten := by
  induction items generalizing c columns with
  | nil =>
    cases h
    exact .nil
  | cons i items ih =>
    rw [List.mapM_cons] at h
    obtain ⟨found, c₁, hi, h⟩ := outcome_bind_eq_ok.1 h
    obtain ⟨rest, c₂, hrest, h⟩ := outcome_bind_eq_ok.1 h
    cases h
    have hl := (Loads.columns env k i) c
    rw [hi] at hl
    have hfound := readFrom_columns hi
    rw [hs] at hfound
    exact List.rel_append hfound (ih (hl.load_eq.trans hs) hrest)

/-- A column with an origin is read from it. -/
theorem exists_reads_of_projectAll {k i j : Nat} {items : List Item} {p : Projection}
    {key : String} {e : Entry}
    (ho : (items.flatMap (·.origins (c.scopes.load env.catalog)))[i]? = some (some ⟨j, key⟩))
    (he : c.scopes.entries[j]? = some e)
    (h : (Item.projectAll (Nested.within k) items).outcome env c = (.ok p, c')) :
    ∃ column, p.columns[i]? = some column ∧ (e.load env.catalog).Reads key column := by
  obtain ⟨columns, c₁, hm, h⟩ := outcome_bind_eq_ok.1 h
  cases h
  have hall := readFrom_mapM rfl hm
  obtain ⟨hi, ho⟩ := List.getElem?_eq_some_iff.1 ho
  have hi' : i < columns.flatten.length := hall.length_eq ▸ hi
  have he' : (c.scopes.load env.catalog).entries[j]? = some (e.load env.catalog) := by
    rw [ScopeStack.entries_load, List.getElem?_map, he]
    rfl
  exact ⟨columns.flatten[i], List.getElem?_eq_getElem hi',
    hall.get hi hi' j key (e.load env.catalog) ho he'⟩

/-- A column that a block projects, and that has an origin in the scope which the
sources leave, is read from it. -/
theorem exists_reads {k i j : Nat} {s : Select} {c c₁ c' : Context} {p : Projection}
    {key : String} {e : Entry}
    (hs : (s.sources.forM fun t => discard (t.register (Nested.within k))).outcome env c.pushScope =
      (.ok (), c₁))
    (ho : (s.origins (c₁.scopes.load env.catalog))[i]? = some (some ⟨j, key⟩))
    (he : c₁.scopes.entries[j]? = some e)
    (hp : ((Body.select s).project (Nested.within k)).outcome env c = (.ok p, c')) :
    ∃ column, p.columns[i]? = some column ∧ (e.load env.catalog).Reads key column := by
  obtain ⟨c₂, hp, -⟩ := outcome_between_eq_ok.1 hp
  obtain ⟨_, c₃, hs', hp⟩ := outcome_bind_eq_ok.1 hp
  obtain ⟨-, rfl⟩ := Prod.mk.inj (hs.symm.trans hs')
  exact exists_reads_of_projectAll ho he hp

end Analysis

/-- When a block is projected in a context, the columns of an item begin at a position, and the item
is resolved in another context, which the sources and the items before it leave. -/
inductive Select.ItemAt (env : Env) (k : Nat) (s : Select) (c : Context) (item : Item) :
    Nat → Context → Prop where
  | intro {before after : List Item} {c₁ c₂ : Context} {columns : List (List ResultColumn)}
    (hi : s.items = before ++ item :: after)
    (hs : (s.sources.forM fun t => discard (t.register (Nested.within k))).outcome env c.pushScope =
      (.ok (), c₁))
    (hb : (before.mapM (Item.columns (Nested.within k))).outcome env c₁ = (.ok columns, c₂)) :
    ItemAt env k s c item columns.flatten.length c₂

namespace Select

open Analysis

variable {env : Env} {k i : Nat} {s : Select} {c c₁ c₂ c' : Context} {p : Projection} {item : Item}
  {value : Expr} {aliasName : Option String} {q : Query}

private theorem outcome_project_eq_ok
    (h : ((Body.select s).project (Nested.within k)).outcome env c = (.ok p, c')) :
    ∃ c₁ columns c₂,
      (s.sources.forM fun t => discard (t.register (Nested.within k))).outcome env c.pushScope =
        (.ok (), c₁) ∧
        (s.items.mapM (Item.columns (Nested.within k))).outcome env c₁ = (.ok columns, c₂) ∧
        columns.flatten = p.columns := by
  obtain ⟨c₃, h, -⟩ := outcome_between_eq_ok.1 h
  obtain ⟨_, c₁, hs, h⟩ := outcome_bind_eq_ok.1 h
  obtain ⟨columns, _, hi, h⟩ := outcome_bind_eq_ok.1 h
  cases h
  exact ⟨c₁, columns, _, hs, hi, rfl⟩

/-- What a list of items comes to is what each of them comes to in turn. -/
theorem outcome_items_eq_ok {before after : List Item} {columns : List (List ResultColumn)}
    (h : ((before ++ item :: after).mapM (Item.columns (Nested.within k))).outcome env c =
      (.ok columns, c')) :
    ∃ columns₁ c₁ own c₂ columns₂, (before.mapM (Item.columns (Nested.within k))).outcome env c =
      (.ok columns₁, c₁) ∧
      (item.columns (Nested.within k)).outcome env c₁ = (.ok own, c₂) ∧
      columns₁ ++ own :: columns₂ = columns := by
  rw [List.mapM_append, List.mapM_cons] at h
  obtain ⟨columns₁, c₁, hbefore, h⟩ := outcome_bind_eq_ok.1 h
  obtain ⟨rest, c₃, hrest, h⟩ := outcome_bind_eq_ok.1 h
  obtain ⟨own, c₂, hown, hrest⟩ := outcome_bind_eq_ok.1 hrest
  obtain ⟨columns₂, c₄, -, hrest⟩ := outcome_bind_eq_ok.1 hrest
  cases hrest
  cases h
  exact ⟨columns₁, c₁, own, c₂, columns₂, hbefore, hown, rfl⟩

/-- In a successful run every item has its place. -/
theorem exists_itemAt (hm : item ∈ s.items)
    (hp : ((Body.select s).project (Nested.within k)).outcome env c = (.ok p, c')) :
    ∃ i c₂, s.ItemAt env k c item i c₂ := by
  obtain ⟨c₁, columns, c₂, hs, hitems, -⟩ := outcome_project_eq_ok hp
  obtain ⟨before, after, hsplit⟩ := List.append_of_mem hm
  rw [hsplit] at hitems
  obtain ⟨columns₁, c₃, own, c₄, columns₂, hb, -⟩ := outcome_items_eq_ok hitems
  exact ⟨_, c₃, .intro hsplit hs hb⟩

/-- What an item with one column comes to is the column at its place. -/
private theorem ItemAt.outcome_eq_ok (h : s.ItemAt env k c item i c₂)
    (hp : ((Body.select s).project (Nested.within k)).outcome env c = (.ok p, c')) :
    ∃ own c₃, (item.columns (Nested.within k)).outcome env c₂ = (.ok own, c₃) ∧
      ∀ column, own = [column] → p.columns[i]? = some column := by
  obtain ⟨hi, hs, hb⟩ := h
  obtain ⟨c₁, columns, c₃, hs', hitems, hcolumns⟩ := outcome_project_eq_ok hp
  cases hs.symm.trans hs'
  rw [hi] at hitems
  obtain ⟨columns₁, c₄, own, c₅, columns₂, hb', hown, rfl⟩ := outcome_items_eq_ok hitems
  cases hb.symm.trans hb'
  refine ⟨own, c₅, hown, ?_⟩
  rintro column rfl
  rw [← hcolumns]
  simp

/-- The column of an item that is an expression is that of the expression,
under the alias if there is one. -/
theorem ItemAt.expr (h : s.ItemAt env k c (.expr value aliasName) i c₂)
    (hp : ((Body.select s).project (Nested.within k)).outcome env c = (.ok p, c')) :
    ∃ column c₃, (value.resolve (.within k)).outcome env c₂ = (.ok column, c₃) ∧
      p.columns[i]? = some { column with aliasName := aliasName.or column.aliasName } := by
  obtain ⟨own, c₃, hown, hcolumn⟩ := h.outcome_eq_ok hp
  obtain ⟨column, c₄, hresolve, hown⟩ := outcome_bind_eq_ok.1 hown
  cases hown
  exact ⟨column, c₃, hresolve, hcolumn _ rfl⟩

/-- The column of an item that is a scalar subquery shows what the subquery came to. -/
theorem ItemAt.subquery (h : s.ItemAt env k c (.expr value aliasName) i c₂)
    (hv : value.unnested = .subquery q)
    (hp : ((Body.select s).project (Nested.within k)).outcome env c = (.ok p, c')) :
    ∃ set c₃, ((Nested.within k).query q).outcome env c₂ = (.ok set, c₃) ∧
      p.columns[i]? = some { ResultColumn.ofSubquery set with
        aliasName := aliasName.or (ResultColumn.ofSubquery set).aliasName } := by
  obtain ⟨_, c₃, hresolve, hcolumn⟩ := h.expr hp
  obtain ⟨set, hq, rfl⟩ := (Expr.outcome_resolve_subquery hv).1 hresolve
  exact ⟨set, c₃, hq, hcolumn⟩

end Select

open Analysis

section FirstSelect

variable {P : List ResultColumn → Prop} (hnames : ∀ cs, P cs → P (ResultColumn.assignNames cs))
  (hunion : ∀ left right : Projection, P left.columns → P (left.union right).columns)

include hnames hunion

private theorem Body.returns_of_firstSelect {k : Nat}
    (hquery : ∀ q : Query,
      (∀ j < k,
        Returns (fun p => P p.columns) (Item.projectAll (Nested.within j) q.firstSelect.items)) →
        Returns (fun set => ∃ cs, P cs ∧ set.columns = ResultColumn.assignNames cs)
          ((Nested.within k).query q))
    {b : Body}
    (h : ∀ j < k + 1,
      Returns (fun p => P p.columns) (Item.projectAll (Nested.within j) b.firstSelect.items)) :
    Returns (fun p => P p.columns) (b.project (Nested.within k)) := by
  induction b using Body.queries.induct with
  | case1 block => exact .between (.bind fun _ => h k k.lt_succ_self) _ _
  | case2 q =>
    refine (hquery q fun j hj => h j (Nat.lt_succ_of_lt hj)).andThen ?_
    rintro set ⟨cs, hcs, hcolumns⟩
    exact .pure (hcolumns ▸ hnames cs hcs)
  | case3 op left right ihl ihr =>
    exact (ihl h).andThen fun l hl => .bind fun r => .pure (hunion l r hl)

/-- What holds of the columns that the first block gives holds of those of the query, if naming and
widening columns keeps to it. -/
theorem Query.returns_of_firstSelect {k : Nat} {q : Query}
    (h : ∀ j < k,
      Returns (fun p => P p.columns) (Item.projectAll (Nested.within j) q.firstSelect.items)) :
    Returns (fun set => ∃ cs, P cs ∧ set.columns = ResultColumn.assignNames cs)
      ((Nested.within k).query q) := by
  induction k generalizing q with
  | zero => exact fun env c set c' hset => by cases hset
  | succ k ih =>
    intro env c set c' hset
    obtain ⟨-, p, c₁, hp, rfl, -⟩ := outcome_query_eq_ok.1 hset
    have hbody := Body.returns_of_firstSelect hnames hunion (b := q.body) (fun q hq => ih hq)
        (by cases q; exact h)
    exact ⟨p.columns, hbody env _ p c₁ hp, q.columns_resultOf env.config p⟩

end FirstSelect

end ResultShape
