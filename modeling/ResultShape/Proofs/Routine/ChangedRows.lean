import ResultShape.Proofs.Analysis.Projection
import ResultShape.Proofs.Analysis.Targets
import ResultShape.Proofs.Routine.StoredColumns
/-! Changed rows: what a change sends to the client out of `inserted` and `deleted`
are the columns of its target. -/
namespace ResultShape

open Analysis

/-- The action is an `INSERT`, `UPDATE`, `DELETE` or `MERGE` whose `OUTPUT` clause
sends these items to the client. -/
inductive Action.Outputs : Action → List Cte → Source → List Source → Bool → List Item → Prop where
  | insert {s : Insert} {items : List Item} (h : s.output = some ⟨items, none⟩) :
    Outputs (.insert s) s.ctes s.target [] false items
  | update {s : Change} {items : List Item} (h : s.output = some ⟨items, none⟩) :
    Outputs (.update s) s.ctes s.target s.sources false items
  | delete {s : Change} {items : List Item} (h : s.output = some ⟨items, none⟩) :
    Outputs (.delete s) s.ctes s.target s.sources false items
  | merge {s : Merge} {items : List Item} (h : s.output = some ⟨items, none⟩) :
    Outputs (.merge s) s.ctes s.target [s.source] true items

/-- The column is that of a name in a source, which has an entry: it is read through the entry,
under whatever alias, and if the source has stored columns and one of this name among them, it shows
that one. It is null at least where rows of the source may be missing. -/
structure ResultColumn.OfSource (env : Env) (c : Context) (s : Source) (e : Entry) (mayMiss : Bool)
    (name : String) (column : ResultColumn) : Prop where
  read : ∃ aliasName, column.unnamed =
    (({ e with aliasName, forceNullable := mayMiss }.load env.catalog).project name).unnamed
  stored : ∀ owner columns, Stores env c s owner columns →
    (columns.map fun d => Text.fold d.name).Nodup →
    ∀ d ∈ columns, Text.fold d.name = Text.fold name →
      { column with name := d.name }.Shows env.catalog owner
        { d with isNullable := mayMiss || d.isNullable }

/-- In the scope of an `OUTPUT` clause a qualifier stands for columns with a property: a reference
is resolved to such a column, wherever it stands, and an item that is no more than a reference sends
one, behind those of the items before it. -/
structure ResultSet.Qualifies (env : Env) (k : Nat) (c : Context) (items : List Item)
    (qualifier : String) (P : String → ResultColumn → Prop) (set : ResultSet) : Prop where
  resolves : ∀ name c', ScopeStack.Loaded env.catalog c.scopes c'.scopes →
    ∃ column c₁, (columnRef ⟨none, some qualifier, name⟩).outcome env c' = (.ok column, c₁) ∧
      column.name = name ∧
      P name column
  sends : ∀ before value aliasName after name, items = before ++ .expr value aliasName :: after →
    value.unnested = .column ⟨none, some qualifier, name⟩ →
    ∃ columns c₁ column, (before.mapM (Item.columns (Nested.within k))).outcome env c =
      (.ok columns, c₁) ∧
      set.columns[columns.flatten.length]? = some column ∧ P name column

/-- The rows of a change, registered in a scope of its own, are those of its target: the columns
behind `inserted` and `deleted` are columns of the target, which are null where an outer join leaves
its rows out or the change is a `MERGE`, and the object of the result set is that of the target. For
this the names must be free. No source in scope by then may go by them, unless the change is no
`MERGE` and the source is the target. -/
def ResultSet.ReadsTarget (env : Env) (k : Nat) (c : Context) (target : Source)
    (sources : List Source) (isMerge : Bool) (items : List Item) (set : ResultSet) : Prop :=
  ∃ c₁ inScope j l e,
    (Walk.registerChange (Nested.within k) target sources isMerge).outcome env c.pushScope =
      (.ok (), c₁) ∧
    Walk.Targets env c target sources isMerge inScope j ∧
    (inScope.flatMap (·.leaves false))[j]? = some l ∧
    l.source.Adds env c e ∧
    ∀ pseudo ∈ pseudoTables,
      (∀ i, (inScope.flatMap (·.leaves false)).findIdx? (·.goesBy env c pseudo) = some i →
        i = j ∧ isMerge = false) →
      set.Qualifies env k c₁ items pseudo
          (fun name column => column.OfSource env c l.source e (isMerge || l.mayMiss) name) ∧
        (pseudo = "inserted" → set.reference = l.source.object? env c)

namespace ResultColumn.OfSource

variable {env : Env} {c : Context} {s : Source} {e : Entry} {mayMiss : Bool} {name : String}
  {column : ResultColumn}

/-- What is stored comes out of an entry that its source added. -/
private theorem of_read (hadds : s.Adds env c e) (h : ∃ aliasName, column.unnamed =
      (({ e with aliasName, forceNullable := mayMiss }.load env.catalog).project name).unnamed) :
    column.OfSource env c s e mayMiss name := by
  refine ⟨h, fun owner columns hstores hdistinct d hd hname => ?_⟩
  obtain ⟨aliasName, hread⟩ := h
  obtain ⟨infos, hknown, hkeeps⟩ := hstores.columns_of_adds hadds
  obtain ⟨i, hi, rfl⟩ := List.mem_iff_getElem.1 hd
  have hi' : i < infos.length := hkeeps.length_eq ▸ hi
  have hkeep := hkeeps.get hi' hi
  have hget :=
    ColumnMap.get?_ofInfos (ColumnInfo.nodup_of_keeps hkeeps hdistinct) (List.getElem_mem hi')
  have hfold : Text.fold infos[i].name = Text.fold name :=
    (congrArg Text.fold (hkeep "").name).trans hname
  let shown : Entry := { e with aliasName, forceNullable := mayMiss }
  have hcolumn : (shown.load env.catalog).column? name = some infos[i] := by
    change Option.bind (shown.load env.catalog).columnMap? _ = _
    have hmap : (shown.load env.catalog).columnMap? = some (.ofInfos infos) := by
      have hshown : (shown.load env.catalog).columns = .known (.ofInfos infos) := hknown
      rw [Entry.columnMap?, hshown]
    rw [hmap, Option.bind_some, ← hfold, hget]
  have hproject :
      (shown.load env.catalog).project name = infos[i].project shown.visibleName mayMiss := by
    rw [Entry.project, hcolumn]
    rfl
  rw [hproject] at hread
  have hshown := hkeep shown.visibleName
  refine ⟨rfl, ?_, ?_, ?_, ?_⟩
  · exact (congrArg ResultColumn.source hread).trans hshown.source
  · exact (congrArg ResultColumn.sqlType hread).trans hshown.sqlType
  · exact (congrArg ResultColumn.userType hread).trans hshown.userType
  · have hnull := congrArg ResultColumn.isNullable hread
    cases mayMiss with
    | false => exact hnull.trans hshown.isNullable
    | true => exact hnull

end ResultColumn.OfSource

section Qualifies

variable {env : Env} {k : Nat} {c c₁ c' : Context} {items : List Item} {set : ResultSet}
  {qualifier : String} {e : Entry}

private theorem exists_outcome_columnRef (h : c.scopes.Finds env.catalog qualifier e)
    (name : String) :
    ∃ column c₁, (columnRef ⟨none, some qualifier, name⟩).outcome env c = (.ok column, c₁) ∧
      column.name = name ∧
      column.unnamed = ((e.load env.catalog).project name).unnamed := by
  refine ⟨{ (e.load env.catalog).project name with name },
    { c with scopes := (ScopeStack.lookup env.catalog ⟨none, some qualifier, name⟩ c.scopes).2 },
    ?_, rfl, rfl⟩
  simp only [columnRef, Option.isNone_some, Bool.false_and, Bool.false_eq_true, if_false]
  rw [outcome_bind_of_ok (outcome_fromScopes env c _), h.lookup_eq name]
  rfl

/-- The column of an item comes behind those of the items before it, under some name. -/
private theorem exists_column_of_resolveAll {before after : List Item} {value : Expr}
    {aliasName : Option String}
    (h : (Item.resolveAll (Nested.within k) (before ++ .expr value aliasName :: after)).outcome
      env c = (.ok set, c')) :
    ∃ columns c₁ column c₂ named,
      (before.mapM (Item.columns (Nested.within k))).outcome env c = (.ok columns, c₁) ∧
      (value.resolve (Nested.within k)).outcome env c₁ = (.ok column, c₂) ∧
      set.columns[columns.flatten.length]? = some named ∧ named.unnamed = column.unnamed := by
  obtain ⟨p, c₁, hp, h⟩ := outcome_bind_eq_ok.1 h
  cases h
  obtain ⟨all, c₂, hall, hp⟩ := outcome_bind_eq_ok.1 hp
  cases hp
  obtain ⟨columns, c₃, own, c₄, columns', hbefore, hown, rfl⟩ := Select.outcome_items_eq_ok hall
  obtain ⟨column, c₅, hresolve, hown⟩ := outcome_bind_eq_ok.1 hown
  cases hown
  let own : ResultColumn := { column with aliasName := aliasName.or column.aliasName }
  have hown : (columns ++ [own] :: columns').flatten[columns.flatten.length]? = some own := by simp
  have hnamed :=
    ResultColumn.getElem?_assignNames (columns ++ [own] :: columns').flatten columns.flatten.length
  rw [hown] at hnamed
  exact ⟨columns, c₃, column, c₄, _, hbefore, hresolve, hnamed, rfl⟩

/-- A reference is resolved in the scope that the items before it leave. Whatever they look up, its
qualifier finds the same entry. -/
private theorem qualifies_of_finds {P : String → ResultColumn → Prop}
    (h : c.scopes.Finds env.catalog qualifier e)
    (hset : (Item.resolveAll (Nested.within k) items).outcome env c = (.ok set, c'))
    (hP : ∀ name column, column.unnamed = ((e.load env.catalog).project name).unnamed →
      P name column) :
    set.Qualifies env k c items qualifier P where
  resolves name c₁ hl := by
    obtain ⟨column, c₂, hcolumn, hname, hread⟩ := exists_outcome_columnRef (h.loaded hl) name
    exact ⟨column, c₂, hcolumn, hname, hP name column hread⟩
  sends before value aliasName after name hitems hvalue := by
    rw [hitems] at hset
    obtain ⟨columns, c₁, column, c₂, named, hbefore, hresolve, hnamed, hsame⟩ :=
      exists_column_of_resolveAll hset
    have hl := Loads.allColumns env k before c
    rw [hbefore] at hl
    rw [← Expr.resolve_unnested, hvalue] at hresolve
    obtain ⟨column', c₃, hcolumn, -, hread⟩ := exists_outcome_columnRef (h.loaded hl) name
    obtain ⟨hcolumns, -⟩ := Prod.mk.inj (hresolve.symm.trans hcolumn)
    cases hcolumns
    exact ⟨columns, c₁, named, hbefore, hnamed, hP name named (hsame.trans hread)⟩

private theorem readsTarget_of_changedRows {ctes : List Cte} {target : Source}
    {sources : List Source} {isMerge : Bool} (hc : c.Anchored)
    (h : (Walk.changedRows ctes target sources isMerge items (Nested.within k)).outcome env c =
      (.ok set, c')) :
    set.ReadsTarget env k (c.pushCtes ctes) target sources isMerge items := by
  obtain ⟨c₂, h, -⟩ := outcome_between_eq_ok.1 h
  obtain ⟨c₃, h, -⟩ := outcome_between_eq_ok.1 h
  obtain ⟨_, c₁, hregister, h⟩ := outcome_bind_eq_ok.1 h
  obtain ⟨rows, c₄, hrows, h⟩ := outcome_bind_eq_ok.1 h
  obtain ⟨_, _, hget, h⟩ := outcome_bind_eq_ok.1 h
  cases hget
  cases h
  obtain ⟨inScope, j, l, e, htargets, hl, hadds, hfinds⟩ :=
    exists_finds_of_registerChange (c := c.pushCtes ctes) hc hregister
  refine ⟨c₁, inScope, j, l, e, hregister, htargets, hl, hadds, fun pseudo hp hfirst => ?_⟩
  obtain ⟨aliasName, hfound⟩ := hfinds pseudo hp hfirst
  have hqualifies : rows.Qualifies env k c₁ items pseudo fun name column =>
      column.OfSource env (c.pushCtes ctes) l.source e (isMerge || l.mayMiss) name :=
    qualifies_of_finds hfound hrows fun name column hread => .of_read hadds ⟨aliasName, hread⟩
  refine ⟨⟨hqualifies.resolves, hqualifies.sends⟩, ?_⟩
  rintro rfl
  -- The items only look up columns, so the name still finds its entry where the object is read.
  obtain ⟨p, c₅, hp, hrows⟩ := outcome_bind_eq_ok.1 hrows
  cases hrows
  obtain ⟨columns, c₆, hcolumns, hp⟩ := outcome_bind_eq_ok.1 hp
  cases hp
  have hl := Loads.allColumns env k items c₁
  rw [hcolumns] at hl
  exact (hfound.loaded hl).targetReference_eq.trans hadds.object?_eq

end Qualifies

namespace Walk

variable {env : Env} {f f' : Findings} {ctes : List Cte} {target : Source} {sources : List Source}
  {isMerge : Bool} {items : List Item}

private theorem exists_set_of_output (hf : f.context.Reachable)
    (h : output ctes target sources isMerge (some ⟨items, none⟩) env f = .ok ((), f')) :
    ∃ set, f'.model.resultSets = f.model.resultSets ++ [set] ∧
      set.ReadsTarget env (env.config.maxNestingDepth - f.context.depth) (f.context.pushCtes ctes)
        target sources isMerge
        items := by
  obtain ⟨set, f₁, hset, h⟩ := run_bind_eq_ok.1 h
  cases h
  obtain ⟨c, hc, rfl⟩ := run_ask_eq_ok.1 hset
  exact ⟨set, rfl, readsTarget_of_changedRows hf.anchored hc⟩

/-- In whatever state a walk comes to a change whose `OUTPUT` clause sends rows to the client, if it
gets past the change it has one more result set, in which `inserted` and `deleted` read the target
unless a source in scope goes by that name. -/
theorem output_reads_target {returnsTable : Bool} {a : Action} (hf : f.context.Reachable)
    (ho : a.Outputs ctes target sources isMerge items)
    (h : action returnsTable a env f = .ok ((), f')) :
    ∃ set, f'.model.resultSets = f.model.resultSets ++ [set] ∧
      set.ReadsTarget env (env.config.maxNestingDepth - f.context.depth) (f.context.pushCtes ctes)
        target sources isMerge
        items := by
  cases ho with
  | @insert s items ho =>
    obtain ⟨ctes, target, columns, source, clause⟩ := s
    cases ho
    cases source with
    | execute call =>
      -- The procedure whose rows are inserted is noted, and the context stays as it is.
      obtain ⟨_, f₁, he, h⟩ := run_bind_eq_ok.1 h
      obtain ⟨_, _, hschema, he⟩ := run_bind_eq_ok.1 he
      cases hschema
      cases he
      apply exists_set_of_output _ h
      exact hf
    | _ => exact exists_set_of_output hf h
  | update ho | delete ho | merge ho =>
    simp only [action, ho] at h
    exact exists_set_of_output hf h

end Walk

namespace TableVariable

/-- `inserted.Id` as an item. -/
def insertedId : Item := .expr (.column ⟨none, some "inserted", "Id"⟩) none

/-- `UPDATE o … OUTPUT inserted.Id FROM @t AS o`. -/
def updateThroughAlias : Action :=
  .update ⟨[], .named (.bare "o") none, [.var "@t" (some "o")], some ⟨[insertedId], none⟩⟩

/-- What a walk has found behind an action that follows the declaration. -/
def foundBehind (a : Action) : Findings := ((Walk.action false a env found).toOption.getD default).2

end TableVariable

open TableVariable in
/-- The target goes by an alias, and its column is the one that is declared, under the
name of the table variable. -/
theorem Walk.output_reads_target_through_alias :
    action false updateThroughAlias env found = .ok ((), foundBehind updateThroughAlias) ∧
      ∃ set column, (foundBehind updateThroughAlias).model.resultSets = [set] ∧
        set.columns[0]? = some column ∧
      { column with name := "Id" }.Shows env.catalog { table := some "@t" }
        ⟨"Id", .bare "int", false⟩ := by
  have hf : found.context.Reachable := .step .start (.bindings {} _)
  have h :
      action false updateThroughAlias env found = .ok ((), foundBehind updateThroughAlias) := by rfl
  obtain ⟨set, hset, c₁, inScope, j, l, e, -, htargets, hl, -, hreads⟩ :=
    output_reads_target hf (.update rfl) h
  obtain ⟨rfl, rfl⟩ : inScope = [.var "@t" (some "o")] ∧ j = 0 := by
    cases htargets with
    | source hn hj =>
      cases hn
      exact ⟨rfl, (Option.some.inj hj).symm⟩
    | behind hnone => cases hnone "o" rfl
  cases hl
  obtain ⟨hqualifies, -⟩ := hreads "inserted" (by decide) (by intro i hi; cases hi)
  obtain ⟨columns, c₂, column, hbefore, hcolumn, hof⟩ := hqualifies.sends [] _ none [] "Id" rfl rfl
  cases hbefore
  have hdeclared : Walk.declareTable "@t" definitions env {} = .ok ((), found) := rfl
  have hstores :
      Stores env (found.context.pushCtes []) (.var "@t" (some "o")) { table := some "@t" }
      (definitions.map (·.stored)) :=
    .variable (some "o") (.declaration "@t" definitions) hdeclared rfl
  exact ⟨h, set, column, hset, hcolumn, hof.stored _ _ hstores (by decide) _ List.mem_cons_self rfl⟩

namespace TableVariable

/-- `UPDATE dbo.T … OUTPUT inserted.Id FROM dbo.X AS inserted`. -/
def updateBesideInserted : Action :=
  .update ⟨[], .named ⟨none, some "dbo", "T"⟩ none,
    [.named ⟨none, some "dbo", "X"⟩ (some "inserted")], some ⟨[insertedId], none⟩⟩

/-- `UPDATE db2.dbo.T … OUTPUT inserted.Id FROM db1.dbo.T AS x`. -/
def updateOtherCatalog : Action :=
  .update ⟨[], .named ⟨some "db2", some "dbo", "T"⟩ none,
    [.named ⟨some "db1", some "dbo", "T"⟩ (some "x")], some ⟨[insertedId], none⟩⟩

/-- `UPDATE o … OUTPUT inserted.Id FROM @t AS o RIGHT JOIN @t AS p`. -/
def updateBehindRightJoin : Action :=
  .update ⟨[], .named (.bare "o") none,
    [.join .right (.var "@t" (some "o")) (.var "@t" (some "p")) none], some ⟨[insertedId], none⟩⟩

end TableVariable

open TableVariable in
/-- A source that is called `inserted` hides the changed rows of the target, and the object of the
result set is that source. A source with the schema and the name of the target is taken for it,
although it is in another catalog. And where an outer join leaves rows of the target out, a column
that is declared `NOT NULL` may be null in the changed rows. -/
theorem Walk.output_reads_other_rows :
    action false updateBesideInserted env found = .ok ((), foundBehind updateBesideInserted) ∧
      (foundBehind updateBesideInserted).model.resultSets.map
        (fun set => (set.columns.map (·.source), set.reference)) =
        [([some { schema := some "dbo", table := some "X", column := some "Id",
                  objectKind := some .table }],
          some ⟨.table, none, some "dbo", "X"⟩)] ∧
      action false updateOtherCatalog env found = .ok ((), foundBehind updateOtherCatalog) ∧
      (foundBehind updateOtherCatalog).model.resultSets.map (·.reference) =
        [some ⟨.table, some "db1", some "dbo", "T"⟩] ∧
      action false updateBehindRightJoin env found = .ok ((), foundBehind updateBehindRightJoin) ∧
      (foundBehind updateBehindRightJoin).model.resultSets.map
        (fun set => set.columns.map (·.isNullable)) =
        [[some true]] :=
  ⟨rfl, rfl, rfl, rfl, rfl, rfl⟩

end ResultShape
