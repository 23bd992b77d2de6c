import ResultShape.Proofs.Alike.Model
import ResultShape.Proofs.Analysis.Naming
import ResultShape.Proofs.Analysis.Projection
import ResultShape.Proofs.Analysis.TableEntries
/-! Columns of tables: a column that is read from a table or view, however deep in
queries, has that as its source. -/
namespace ResultShape

/-- The column, or one inside it, is read from the table or view that a name stands for. -/
def ResultColumn.ShowsTable (env : Env) (n : Name) (c : ResultColumn) : Prop :=
  ∃ d : ResultColumn, d.Within c ∧
    ∃ name, d.source = some { n.tableSource env with column := some name }

/-- A body that is projected in a context, while so many queries may be opened in it, has at a
position a column that is read from the table or view of a name, or that has one inside it: as a
column of a leaf of its `FROM` clause, by itself or for a star, as a column that is read back
through a derived table or CTE, or inside a scalar subquery. -/
inductive ReadsTable (env : Env) (n : Name) : Nat → Body → Context → Nat → Prop where
  /-- The column is one of a leaf that names the table, which is no CTE there. -/
  | own {k i j : Nat} {s : Select} {c c₁ : Context} {key : String} {aliasName : Option String}
    (hs : (s.sources.forM fun t => discard (t.register (Nested.within k))).outcome env c.pushScope =
      (.ok (), c₁))
    (ho : (s.origins (c₁.scopes.load env.catalog))[i]? = some (some ⟨j, key⟩))
    (hl : ((s.sources.flatMap (·.leaves false)).map (·.source))[j]? = some (.named n aliasName))
    (hlocal : n.isLocal = false) (hcte : c.cteNamed? n = none) : ReadsTable env n k (.select s) c i
  /-- The column is read back through a derived table or CTE, in which it is such a column. -/
  | readBack {k i j k' i' : Nat} {s : Select} {c c₁ c₂ : Context} {key : String} {e : Entry}
    {q : Query} {b : Body} {columns : List ResultColumn} {renames : List String}
    (hs : (s.sources.forM fun t => discard (t.register (Nested.within k))).outcome env c.pushScope =
      (.ok (), c₁))
    (ho : (s.origins (c₁.scopes.load env.catalog))[i]? = some (some ⟨j, key⟩))
    (he : c₁.scopes.entries[j]? = some e) (hc : e.columns = .known (.ofColumns columns renames))
    (hk : (ColumnMap.keysOf renames columns).idxOf? key = some i')
    (hb : CameTo env q k' b c₂ columns) (h : ReadsTable env n k' b c₂ i') :
      ReadsTable env n k (.select s) c i
  /-- The item is a scalar subquery that has such a column. -/
  | inside {k i i' : Nat} {s : Select} {c c₁ : Context} {value : Expr} {aliasName : Option String}
    {q : Query} (hi : s.ItemAt env (k + 1) c (.expr value aliasName) i c₁)
    (hv : value.unnested = .subquery q) (h : ReadsTable env n k q.body (c₁.inside q) i') :
      ReadsTable env n (k + 1) (.select s) c i
  /-- The body is a query in parentheses. -/
  | nested {k i : Nat} {q : Query} {c : Context} (h : ReadsTable env n k q.body (c.inside q) i) :
    ReadsTable env n (k + 1) (.nested q) c i
  /-- The column is such a column of the left side of a set operation. -/
  | left {k i : Nat} {op : SetOp} {left right : Body} {c : Context}
    (h : ReadsTable env n k left c i) : ReadsTable env n k (.setOp op left right) c i

namespace ResultColumn.ShowsTable

variable {env : Env} {n : Name} {c c' : ResultColumn}

private theorem of_eq (h : c.ShowsTable env n) (hs : c'.source = c.source)
    (hc : c'.children = c.children) :
    c'.ShowsTable env n := by
  obtain ⟨d, hd, name, hname⟩ := h
  cases hd with
  | self => exact ⟨c', .self, name, hs.trans hname⟩
  | child he hd => exact ⟨d, .child (hc ▸ he) hd, name, hname⟩

private theorem ofSubquery {set : ResultSet} (hm : c ∈ set.columns) (h : c.ShowsTable env n) :
    (ResultColumn.ofSubquery set).ShowsTable env n := by
  obtain ⟨d, hd, name, hname⟩ := h
  unfold ResultColumn.ofSubquery
  split
  · exact ⟨d, .child hm hd, name, hname⟩
  · split
    · rename_i single hsingle
      rw [hsingle, List.mem_singleton] at hm
      subst hm
      split
      · exact of_eq ⟨d, hd, name, hname⟩ rfl rfl
      · exact ⟨d, .child List.mem_cons_self hd, name, hname⟩
    · exact ⟨d, .child hm hd, name, hname⟩

theorem assignNames {cs : List ResultColumn} {i : Nat} (hi : cs[i]? = some c)
    (h : c.ShowsTable env n) :
    ∃ named, (ResultColumn.assignNames cs)[i]? = some named ∧ named.ShowsTable env n := by
  have hmap :=
    congrArg (·[i]?)
      (ResultColumn.map_assignNames (f := fun c => (c.source, c.children)) (fun _ _ => rfl) cs)
  simp only [List.getElem?_map, hi, Option.map_some, Option.map_eq_some_iff, Prod.mk.injEq] at hmap
  obtain ⟨named, hnamed, hs, hc⟩ := hmap
  exact ⟨named, hnamed, h.of_eq hs hc⟩

private theorem union {left right : Projection} {i : Nat} (hi : left.columns[i]? = some c)
    (h : c.ShowsTable env n) :
    ∃ c, (left.union right).columns[i]? = some c ∧ c.ShowsTable env n := by
  rw [Projection.union, List.getElem?_mapIdx, hi]
  refine ⟨_, rfl, ?_⟩
  cases right.columns[i]? with
  | none => exact h
  | some other => exact h.of_eq rfl rfl

/-- What is read back from a column shows what that shows. -/
private theorem of_reads {columns : List ResultColumn} {renames : List String} {e : Entry}
    {key name : String}
    (h : c.ShowsTable env n) (he : e.columns = .known (.ofColumns columns renames))
    (hget : (ColumnMap.ofColumns columns renames).get? key = some (.ofColumn name c))
    (hr : (e.load env.catalog).Reads key c') : c'.ShowsTable env n := by
  have hmap : (e.load env.catalog).columnMap?.bind (·.get? key) = some (.ofColumn name c) := by
    simpa only [Entry.columnMap?, Entry.load, he, EntryColumns.load, Option.bind_some] using hget
  cases hr with
  | listed hl hc =>
    cases hmap.symm.trans hl
    have hs := congrArg ResultColumn.source hc
    have hchildren := congrArg ResultColumn.children hc
    exact h.of_eq hs hchildren
  | unlisted hl _ _ => cases hmap.symm.trans hl

end ResultColumn.ShowsTable

open Analysis

variable {env : Env} {n : Name} {k i : Nat} {b : Body} {q : Query} {c c' : Context} {p : Projection}
  {set : ResultSet}

theorem showsTable_of_query (h : ((Nested.within (k + 1)).query q).outcome env c = (.ok set, c'))
    (hp : ∀ p c₁, (q.body.project (Nested.within k)).outcome env (c.inside q) = (.ok p, c₁) →
      ∃ column, p.columns[i]? = some column ∧ column.ShowsTable env n) :
    ∃ column, set.columns[i]? = some column ∧ column.ShowsTable env n := by
  obtain ⟨-, p, c₁, hb, rfl, -⟩ := outcome_query_eq_ok.1 h
  obtain ⟨column, hi, hshows⟩ := hp p c₁ hb
  rw [Query.columns_resultOf]
  exact hshows.assignNames hi

private theorem showsTable_of_cameTo {columns : List ResultColumn} (h : CameTo env q k b c columns)
    (hp : ∀ p c₁, (b.project (Nested.within k)).outcome env c = (.ok p, c₁) →
      ∃ column, p.columns[i]? = some column ∧ column.ShowsTable env n) :
    ∃ column, columns[i]? = some column ∧ column.ShowsTable env n := by
  cases h with
  | query h => exact showsTable_of_query h hp
  | leftmost h =>
    obtain ⟨-, p, c₁, hb, rfl, -⟩ := outcome_anchor_eq_ok.1 h
    obtain ⟨column, hi, hshows⟩ := hp p c₁ hb
    exact hshows.assignNames hi

/-- Such a column has the table or view as its source, or has one inside it that does. -/
theorem ReadsTable.showsTable (h : ReadsTable env n k b c i)
    (hp : (b.project (Nested.within k)).outcome env c = (.ok p, c')) :
    ∃ column, p.columns[i]? = some column ∧ column.ShowsTable env n := by
  induction h generalizing p c' with
  | own hs ho hl hlocal hcte =>
    obtain ⟨e, he, htable⟩ := ShowsTables.exists_ofTable hs hl hlocal hcte
    obtain ⟨column, hi, hreads⟩ := exists_reads hs ho he hp
    exact ⟨column, hi, column, .self, htable.source_of_reads hreads⟩
  | readBack hs ho he hc hk hb h ih =>
    obtain ⟨column, hi, hreads⟩ := exists_reads hs ho he hp
    obtain ⟨inner, hinner, hshows⟩ := showsTable_of_cameTo hb fun p c₁ hp => ih hp
    obtain ⟨name, hget⟩ := ColumnMap.get?_ofColumns hk hinner
    exact ⟨column, hi, hshows.of_reads hc hget hreads⟩
  | inside hi hv h ih =>
    obtain ⟨set, c₂, hq, hcolumn⟩ := hi.subquery hv hp
    obtain ⟨inner, hinner, hshows⟩ := showsTable_of_query hq fun p c₁ hp => ih hp
    exact ⟨_, hcolumn, (hshows.ofSubquery (List.mem_of_getElem? hinner)).of_eq rfl rfl⟩
  | nested h ih =>
    obtain ⟨set, c₁, hq, hp⟩ := outcome_bind_eq_ok.1 hp
    cases hp
    exact showsTable_of_query hq fun p c₁ hp => ih hp
  | left h ih =>
    obtain ⟨left, c₁, hl, hp⟩ := outcome_bind_eq_ok.1 hp
    obtain ⟨right, c₂, -, hp⟩ := outcome_bind_eq_ok.1 hp
    cases hp
    obtain ⟨column, hi, hshows⟩ := ih hl
    exact hshows.union hi

end ResultShape
