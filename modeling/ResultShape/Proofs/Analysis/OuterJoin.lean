import ResultShape.Proofs.Analysis.Naming
import ResultShape.Proofs.Analysis.Projection
import ResultShape.Proofs.Analysis.Register
import ResultShape.Proofs.Scope.Columns
import ResultShape.Proofs.Typing.Nullability
/-! Outer joins: a column that is read from rows which an outer join may leave out may be null, in
the result set of its query and in those of the queries that read it from there. -/
namespace ResultShape

/-- There is such a column, and it may be null. -/
def NullableAt (columns : List ResultColumn) (i : Nat) : Prop :=
  columns[i]?.bind (·.isNullable) = some true

/-- A body that is projected in a context, while so many queries may be opened in it, reads one of
its columns from rows that an outer join may leave out: through a leaf of its own `FROM` clause, or
through an entry that shows what a query came to which does so. An origin is one of the entries that
the sources leave in the scope of the block. -/
inductive OuterJoined (env : Env) : Nat → Body → Context → Nat → Prop where
  /-- The column is read through a leaf on a side of a join whose rows may be missing. -/
  | own {k i j : Nat} {s : Select} {c c₁ : Context} {key : String} {l : Leaf}
    (hs : (s.sources.forM fun t => discard (t.register (Nested.within k))).outcome env c.pushScope =
      (.ok (), c₁))
    (ho : (s.origins (c₁.scopes.load env.catalog))[i]? = some (some ⟨j, key⟩))
    (hl : (s.sources.flatMap (·.leaves false))[j]? = some l) (hm : l.mayMiss = true) :
      OuterJoined env k (.select s) c i
  /-- The column is read back through a derived table or CTE, in which it is such a column. -/
  | readBack {k i j k' i' : Nat} {s : Select} {c c₁ c₂ : Context} {key : String} {e : Entry}
    {q : Query} {b : Body} {columns : List ResultColumn} {renames : List String}
    (hs : (s.sources.forM fun t => discard (t.register (Nested.within k))).outcome env c.pushScope =
      (.ok (), c₁))
    (ho : (s.origins (c₁.scopes.load env.catalog))[i]? = some (some ⟨j, key⟩))
    (he : c₁.scopes.entries[j]? = some e) (hc : e.columns = .known (.ofColumns columns renames))
    (hk : (ColumnMap.keysOf renames columns).idxOf? key = some i')
    (hb : CameTo env q k' b c₂ columns) (h : OuterJoined env k' b c₂ i') :
      OuterJoined env k (.select s) c i
  /-- The body is a query in parentheses. -/
  | nested {k i : Nat} {q : Query} {c : Context} (h : OuterJoined env k q.body (c.inside q) i) :
    OuterJoined env (k + 1) (.nested q) c i
  /-- The column is such a column of the left side of a set operation. -/
  | left {k i : Nat} {op : SetOp} {left right : Body} {c : Context}
    (h : OuterJoined env k left c i) : OuterJoined env k (.setOp op left right) c i
  /-- The column is such a column of the right side, as far as the left side has columns. -/
  | right {k i : Nat} {op : SetOp} {left right : Body} {c c₁ : Context} {p : Projection}
    (hl : (left.project (Nested.within k)).outcome env c = (.ok p, c₁)) (hi : i < p.columns.length)
    (h : OuterJoined env k right c₁ i) : OuterJoined env k (.setOp op left right) c i

private theorem nullableAt_assignNames {cs : List ResultColumn} {i : Nat} (h : NullableAt cs i) :
    NullableAt (ResultColumn.assignNames cs) i := (ResultColumn.isNullable_assignNames cs i).trans h

private theorem nullableAt_union_left {left right : Projection} {i : Nat}
    (h : NullableAt left.columns i) :
    NullableAt (left.union right).columns i := by
  obtain ⟨c, hc, hn⟩ := Option.bind_eq_some_iff.1 h
  rw [NullableAt, Projection.isNullable_union, hc, Option.bind_some]
  cases right.columns[i]? with
  | none => exact hn
  | some other => exact eitherNullable_eq_true_iff.2 (.inl hn)

private theorem nullableAt_union_right {left right : Projection} {i : Nat}
    (hi : i < left.columns.length)
    (h : NullableAt right.columns i) : NullableAt (left.union right).columns i := by
  obtain ⟨c, hc, hn⟩ := Option.bind_eq_some_iff.1 h
  rw [NullableAt, Projection.isNullable_union, List.getElem?_eq_getElem hi, Option.bind_some, hc,
    Option.elim_some]
  exact eitherNullable_eq_true_iff.2 (.inr hn)

open Analysis

private theorem nullableAt_of_query {env : Env} {k i : Nat} {q : Query} {c c' : Context}
    {set : ResultSet} (h : ((Nested.within (k + 1)).query q).outcome env c = (.ok set, c'))
    (hp : ∀ p c₁, (q.body.project (Nested.within k)).outcome env (c.inside q) = (.ok p, c₁) →
      NullableAt p.columns i) :
    NullableAt set.columns i := by
  obtain ⟨-, p, c₁, hb, rfl, -⟩ := outcome_query_eq_ok.1 h
  rw [Query.columns_resultOf]
  exact nullableAt_assignNames (hp p c₁ hb)

private theorem nullableAt_of_cameTo {env : Env} {q : Query} {k i : Nat} {b : Body} {c : Context}
    {columns : List ResultColumn} (h : CameTo env q k b c columns)
    (hp : ∀ p c₁, (b.project (Nested.within k)).outcome env c = (.ok p, c₁) →
      NullableAt p.columns i) :
    NullableAt columns i := by
  cases h with
  | query h => exact nullableAt_of_query h hp
  | leftmost h =>
    obtain ⟨-, p, c₁, hb, rfl, -⟩ := outcome_anchor_eq_ok.1 h
    exact nullableAt_assignNames (hp p c₁ hb)

/-- A projected column with an origin is null as often as that is. -/
private theorem exists_isNullable {env : Env} {k i j : Nat} {s : Select} {c c₁ c' : Context}
    {p : Projection} {key : String} {e : Entry}
    (hs : (s.sources.forM fun t => discard (t.register (Nested.within k))).outcome env c.pushScope =
      (.ok (), c₁))
    (ho : (s.origins (c₁.scopes.load env.catalog))[i]? = some (some ⟨j, key⟩))
    (he : c₁.scopes.entries[j]? = some e)
    (hp : ((Body.select s).project (Nested.within k)).outcome env c = (.ok p, c')) :
    ∃ column, p.columns[i]? = some column ∧ column.isNullable =
      if e.forceNullable then some true
      else ((e.load env.catalog).columnMap?.bind (·.get? key)).bind (·.isNullable) := by
  obtain ⟨column, hi, hreads⟩ := exists_reads hs ho he hp
  exact ⟨column, hi, hreads.isNullable_eq⟩

/-- A column that is read from rows which an outer join may leave out may be null. -/
private theorem nullableAt_of_outerJoined {env : Env} {k i : Nat} {b : Body} {c c' : Context}
    {p : Projection}
    (h : OuterJoined env k b c i) (hp : (b.project (Nested.within k)).outcome env c = (.ok p, c')) :
    NullableAt p.columns i := by
  induction h generalizing p c' with
  | own hs ho hl hm =>
    obtain ⟨e, he, hshown⟩ := Appends.exists_shownBy hs hl
    obtain ⟨column, hi, hnull⟩ := exists_isNullable hs ho he hp
    rw [hshown.forceNullable, hm, if_pos rfl] at hnull
    exact Option.bind_eq_some_iff.2 ⟨column, hi, hnull⟩
  | readBack hs ho he hc hk hb h ih =>
    obtain ⟨column, hi, hnull⟩ := exists_isNullable hs ho he hp
    have hn := nullableAt_of_cameTo hb fun p c₁ hp => ih hp
    obtain ⟨inner, hinner, hn⟩ := Option.bind_eq_some_iff.1 hn
    obtain ⟨name, hget⟩ := ColumnMap.get?_ofColumns hk hinner
    refine Option.bind_eq_some_iff.2 ⟨column, hi, hnull.trans ?_⟩
    split
    · rfl
    · simp only [Entry.columnMap?, Entry.load, hc, EntryColumns.load, Option.bind_some, hget]
      exact hn
  | nested h ih =>
    obtain ⟨set, c₁, hq, hp⟩ := outcome_bind_eq_ok.1 hp
    cases hp
    exact nullableAt_of_query hq fun p c₁ hp => ih hp
  | left h ih =>
    obtain ⟨left, c₁, hl, hp⟩ := outcome_bind_eq_ok.1 hp
    obtain ⟨right, c₂, hr, hp⟩ := outcome_bind_eq_ok.1 hp
    cases hp
    exact nullableAt_union_left (ih hl)
  | right hl hi h ih =>
    obtain ⟨left, c₁, hl', hp⟩ := outcome_bind_eq_ok.1 hp
    obtain ⟨right, c₂, hr, hp⟩ := outcome_bind_eq_ok.1 hp
    cases hp
    cases hl.symm.trans hl'
    exact nullableAt_union_right hi (ih hr)

/-- Registering a source appends one entry for each of its leaves, from left to right, which is
marked if and only if the rows of the leaf may be missing for a join around it; the entries before
are only loaded. In the result set of a query every column may be null that a block in it reads
through such an entry of its own, that a set operation takes from such a column on either side, or
that is read back from one through a derived table or CTE. -/
theorem outer_join_nullability (env : Env) (k : Nat) :
    (∀ (s : Source) (c : Context) (range : Nat × Nat) (c' : Context),
      (s.register (Nested.within k)).outcome env c = (.ok range, c') →
        range = (c.scopes.entries.length, c.scopes.entries.length + (s.leaves false).length) ∧
          Appends env (s.leaves false) c c') ∧
    ∀ (q : Query) (c : Context) (i : Nat) (set : ResultSet) (c' : Context),
      OuterJoined env k q.body (c.inside q) i →
      ((Nested.within (k + 1)).query q).outcome env c = (.ok set, c') →
      NullableAt set.columns i := by
  constructor
  · intro s c range c' h
    obtain ⟨happends, hrange⟩ := Appends.register s h
    exact ⟨happends.length_entries ▸ hrange, happends⟩
  · intro q c i set c' h hq
    exact nullableAt_of_query hq fun p c₁ hp => nullableAt_of_outerJoined h hp

/-- An environment with no objects of its own. -/
def bareEnv : Env := ⟨.builtinOnly {}, {}⟩

/-- A document, and another one that is joined to it. -/
def joinedDocuments : Source :=
  .join .left (.openJson .star none [] (some "a")) (.openJson .star none [] (some "b")) none

/-- The keys of the document that is joined. -/
def joinedKeys : Query :=
  ⟨.select ⟨false, none, [.expr (.column ⟨none, some "b", "key"⟩) none], none, [joinedDocuments],
    none, [], none⟩, [], [], none, none⟩

/-- The same keys, read back through a derived table. -/
def keysReadBack : Query :=
  ⟨.select ⟨false, none, [.star none], none, [.derived joinedKeys "d" []], none, [], none⟩, [],
    [], none, none⟩

/-- What the sources of the first block of a query come to in the scope of that block. -/
private def registered (k : Nat) (q : Query) (c : Context) : Except AnalysisError Unit × Context :=
  (q.firstSelect.sources.forM fun t => discard (t.register (Nested.within k))).outcome bareEnv
    (c.inside q).pushScope

/-- Where the derived table is registered. -/
private def derivedContext : Context := (({} : Context).inside keysReadBack).pushScope

private theorem outerJoined_joinedKeys :
    OuterJoined bareEnv 0 joinedKeys.body (derivedContext.inside joinedKeys) 0 := by
  have hs : registered 0 joinedKeys derivedContext =
      (.ok (), (registered 0 joinedKeys derivedContext).2) := by rfl
  have ho : (joinedKeys.firstSelect.origins
      ((registered 0 joinedKeys derivedContext).2.scopes.load bareEnv.catalog))[0]? =
        some (some ⟨1, "key"⟩) := by rfl
  have hl : (joinedKeys.firstSelect.sources.flatMap (·.leaves false))[1]? =
      some ⟨.openJson .star none [] (some "b"), true⟩ := by rfl
  exact .own hs ho hl rfl

private def joinedRun : Except AnalysisError ResultSet × Context :=
  ((Nested.within 1).query joinedKeys).outcome bareEnv derivedContext

private def joinedSet : ResultSet := joinedRun.1.toOption.getD default

private theorem outerJoined_keysReadBack :
    OuterJoined bareEnv 1 keysReadBack.body (({} : Context).inside keysReadBack) 0 := by
  have hs : registered 1 keysReadBack {} = (.ok (), (registered 1 keysReadBack {}).2) := by rfl
  have ho : (keysReadBack.firstSelect.origins
      ((registered 1 keysReadBack {}).2.scopes.load bareEnv.catalog))[0]? =
        some (some ⟨0, "key"⟩) := by rfl
  have he : (registered 1 keysReadBack {}).2.scopes.entries[0]? =
      some (.resolved "d" none (some (.ofColumns joinedSet.columns []))) := by rfl
  have hk : (ColumnMap.keysOf [] joinedSet.columns).idxOf? "key" = some 0 := by rfl
  have hq : joinedRun = (.ok joinedSet, joinedRun.2) := by rfl
  exact .readBack hs ho he rfl hk (.query hq) outerJoined_joinedKeys

/-- The key of the second document is no null, and may be one where the document is
joined and where it is read back. -/
theorem outer_join_nullability_read_back :
    (∃ c', (joinedDocuments.register (Nested.within 0)).outcome bareEnv {} = (.ok (0, 2), c') ∧
      Appends bareEnv (joinedDocuments.leaves false) {} c') ∧
    ∃ set c', ((Nested.within 2).query keysReadBack).outcome bareEnv {} = (.ok set, c') ∧
      NullableAt set.columns 0 := by
  constructor
  · have hr : (joinedDocuments.register (Nested.within 0)).outcome bareEnv {} =
        (.ok (0, 2), ((joinedDocuments.register (Nested.within 0)).outcome bareEnv {}).2) := by rfl
    exact ⟨_, hr, ((outer_join_nullability bareEnv 0).1 joinedDocuments {} (0, 2) _ hr).2⟩
  · have hok : (((Nested.within 2).query keysReadBack).outcome bareEnv {}).1.isOk = true := by rfl
    cases hq : ((Nested.within 2).query keysReadBack).outcome bareEnv {} with
    | mk result c' =>
      rw [hq] at hok
      cases result with
      | error e => cases hok
      | ok set =>
        have hn :=
          (outer_join_nullability bareEnv 1).2 keysReadBack {} 0 set c' outerJoined_keysReadBack hq
        exact ⟨set, c', rfl, hn⟩

end ResultShape
