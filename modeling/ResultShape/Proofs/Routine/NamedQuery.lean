import ResultShape.Proofs.Routine.Idle
import ResultShape.Proofs.Routine.NestingLimit
/-! Named queries in a routine: whether a query stands for itself, or is read back as a derived
table, as a CTE or from the temporary table that it makes, its columns are the same. -/
namespace ResultShape

mutual

/-- The body whose first block makes a table. -/
def Body.intoTable (target : String) : Body → Body
  | .select block => .select { block with into := some target }
  | .nested query => .nested (query.intoTable target)
  | .setOp op left right => .setOp op (left.intoTable target) right

/-- The query with `INTO target`. -/
def Query.intoTable (target : String) : Query → Query
  | ⟨body, ctes, orderBy, forClause, sourceText⟩ =>
    ⟨body.intoTable target, ctes, orderBy, forClause, sourceText⟩

end

mutual

private theorem Body.into_firstSelect_intoTable (target : String) :
    ∀ b : Body, (b.intoTable target).firstSelect.into = some target
  | .select block => by simp only [Body.intoTable, Body.firstSelect]
  | .nested query => by
      simp only [Body.intoTable, Body.firstSelect, query.into_firstSelect_intoTable target]
  | .setOp op left right => by
      simp only [Body.intoTable, Body.firstSelect, left.into_firstSelect_intoTable target]

private theorem Query.into_firstSelect_intoTable (target : String) :
    ∀ q : Query, (q.intoTable target).firstSelect.into = some target
  | ⟨body, _, _, _, _⟩ => by
      simp only [Query.intoTable, Query.firstSelect, body.into_firstSelect_intoTable target]

end

private theorem Query.singleRow_intoTable (target : String) (q : Query) :
    (q.intoTable target).singleRow = q.singleRow := by
  rcases q with ⟨_ | _ | _, _⟩ <;> rfl

private theorem Query.resultOf_intoTable (target : String) (q : Query) (config : Config) :
    (q.intoTable target).resultOf config = q.resultOf config := by
  have hdocument : ResultSet.asDocument (q.intoTable target) = ResultSet.asDocument q := by
    funext set f
    rw [ResultSet.asDocument, q.singleRow_intoTable target, ResultSet.asDocument]
  funext p
  rw [Query.resultOf, hdocument]
  cases q
  rfl

private theorem Query.resolveWith_intoTable {target : String} {n : Nested} {q : Query}
    (h : (q.body.intoTable target).project n = q.body.project n) :
    (q.intoTable target).resolveWith n = q.resolveWith n := by
  have hresult := q.resultOf_intoTable target
  obtain ⟨body, ctes, orderBy, forClause, sourceText⟩ := q
  change (do
    let p ← Analysis.withCtes ctes ((body.intoTable target).project n)
    return (Query.mk body ctes orderBy forClause sourceText |>.intoTable target).resultOf
      (← read).config p) = _
  simp only [hresult]
  rw [h]
  rfl

mutual

/-- What a query makes of its rows has no part in its columns. -/
private theorem Body.project_intoTable (target : String) (k : Nat) :
    ∀ b : Body, (b.intoTable target).project (Nested.within k) = b.project (Nested.within k)
  | .select block => by rw [Body.intoTable, Body.project, Body.project]; rfl
  | .nested query => by
      rw [Body.intoTable, Body.project, Body.project, query.within_intoTable target k]
  | .setOp op left right => by
      rw [Body.intoTable, Body.project, Body.project, left.project_intoTable target k]

private theorem Query.within_intoTable (target : String) (k : Nat) :
    ∀ q : Query, (Nested.within k).query (q.intoTable target) = (Nested.within k).query q
  | ⟨body, ctes, orderBy, forClause, sourceText⟩ => by
    cases k with
    | zero => rfl
    | succ k =>
      have hbody := body.project_intoTable target k
      exact congrArg Analysis.opening
        (Query.resolveWith_intoTable (q := ⟨body, ctes, orderBy, forClause, sourceText⟩) hbody)

end

/-- Under every limit a run comes to a result with the property, unless the nesting is too deep for
the limit. For some limit it is not. -/
structure UnlessTooDeep {α : Type} (P : α → Prop) (run : Nat → Except AnalysisError α) : Prop where
  all : ∀ limit, run limit = .error (.nestingTooDeep limit) ∨ ∃ a, run limit = .ok a ∧ P a
  exists_ok : ∃ limit a, run limit = .ok a

/-- One limit is enough for runs that higher limits leave as they are. -/
theorem UnlessTooDeep.of_ok {α : Type} {P : α → Prop} {run : Nat → Except AnalysisError α}
    {limit : Nat} {a : α}
    (hrun : ∀ {low high}, low ≤ high → run low = .error (.nestingTooDeep low) ∨ run low = run high)
    (h : run limit = .ok a) (ha : P a) : UnlessTooDeep P run := by
  -- A lower limit stops the run or leaves it as it is, and under this one it was not stopped.
  refine ⟨fun limit' => ?_, limit, a, h⟩
  rcases Nat.le_total limit' limit with hl | hl
  · exact (hrun hl).imp_right fun he => ⟨a, he.trans h, ha⟩
  · rcases hrun hl with he | he
    · rw [h] at he
      cases he
    · exact .inr ⟨a, he.symm.trans h, ha⟩

/-- These are the columns of a query in a context. -/
def Query.HasColumns (env : Env) (c : Context) (q : Query) (columns : List ColumnInfo) : Prop :=
  UnlessTooDeep (fun set => set.columns.map (·.info) = columns) fun limit =>
    (((c.depthWithin limit).nested.query q).outcome (env.limited limit) c).1

/-- The statements send one result set to the client, with these columns. -/
def Walk.Sends (env : Env) (returnsTable : Bool) (f : Findings) (ss : List Statement)
    (columns : List ColumnInfo) : Prop :=
  UnlessTooDeep (fun p => ∃ set, p.2.model.resultSets = f.model.resultSets ++ [set] ∧
    set.columns.map (·.info) = columns)
    fun limit => statements returnsTable ss (env.limited limit) f

variable {env : Env} {returnsTable : Bool} {f : Findings} {c c' : Context} {q : Query}
  {columns : List ColumnInfo} {limit : Nat}

private theorem Context.Idle.nested_eq {first : Nat} (h : c.Idle first) (limit : Nat) :
    (c.depthWithin limit).nested = .within limit :=
  congrArg (fun depth => Nested.within (limit - depth)) h.depth

theorem Query.HasColumns.of_ok {first : Nat} (hc : c.Idle first) {set : ResultSet}
    (h : ((Nested.within limit).query q).outcome (env.limited limit) c = (.ok set, c')) :
    q.HasColumns env c (set.columns.map (·.info)) := by
  have hrun :
      (((c.depthWithin limit).nested.query q).outcome (env.limited limit) c).1 = .ok set := by
    rw [hc.nested_eq, h]
  refine UnlessTooDeep.of_ok (fun {low high} hl => ?_) hrun rfl
  rw [hc.nested_eq, hc.nested_eq]
  exact ((Analysis.StoppedOrSame.within (env.fitsIn_limited hl) hl).1 q c).imp_right
    (congrArg Prod.fst)

/-- Under some limit a query in an idle context has a result set. -/
private theorem Context.Idle.exists_ok {first : Nat} (hc : c.Idle first) (env : Env) (q : Query) :
    ∃ k set c', ((Nested.within (k + 1)).query q).outcome (env.limited (k + 1)) c =
      (.ok set, c') := by
  obtain ⟨limit, hl⟩ := (Analysis.eventually_succeedsAt_nested env c.place q).exists
  obtain ⟨set, c', h, -⟩ := hl.1 c rfl
  have hd : c.place.depth = 0 := hc.depth
  rw [hd] at h
  cases limit with
  | zero => cases h
  | succ k => exact ⟨k, set, c', h⟩

namespace Walk

/-- A `SELECT` at the start of a statement, with what becomes of its rows. -/
private theorem run_select {limit : Nat} {set : ResultSet} (hf : f.Idle)
    (h : ((Nested.within limit).query q).outcome (env.limited limit)
      f.context.nextStatement = (.ok set, c))
    (returnsTable : Bool) :
    statement returnsTable (.action (.select q)) (env.limited limit) f =
      (match q.firstSelect.into with
        | some target => bindings (·.bindTable target (.ofColumns set.columns []))
        | none => if q.isVisible then addResultSet set else return)
        (env.limited limit) { f with context := c } := by
  have hquery : ask (fun nested => nested.query q) (env.limited limit)
      { f with context := f.context.nextStatement } = .ok (set, { f with context := c }) := by
    refine run_ask_eq_ok.2 ⟨c, ?_, rfl⟩
    rw [hf.nextStatement.nested_eq]
    exact h
  have hnext : (modify fun f => { f with context := f.context.nextStatement } : Walk Unit)
      (env.limited limit) f = .ok ((), { f with context := f.context.nextStatement }) := rfl
  rw [statement, run_bind_of_ok hnext]
  exact run_bind_of_ok hquery

/-- A query that is read back sends one result set. -/
private theorem Sends.of_readAll {ctes : List Cte} {source : Source} {set : ResultSet} (hf : f.Idle)
    (h : ((Nested.within limit).query (.readAll ctes source)).outcome (env.limited limit)
      f.context.nextStatement =
      (.ok set, c)) (returnsTable : Bool) :
    Sends env returnsTable f [.action (.select (.readAll ctes source))]
      (set.columns.map (·.info)) :=
  UnlessTooDeep.of_ok (fun hl => StoppedOrSame.statements (env.fitsIn_limited hl) _ _ f)
    (run_bind_of_ok (run_select hf h returnsTable))
    ⟨set, rfl, rfl⟩

/-- Rows that a query put into a temporary table are read back from it. -/
private theorem Sends.of_intoTable {name : String} {set : ResultSet} {k : Nat} (hf : f.Idle)
    (h : ((Nested.within (k + 1)).query q).outcome (env.limited (k + 1))
      f.context.nextStatement = (.ok set, c))
    (hlocal : (Name.bare name).isLocal = true) (returnsTable : Bool) :
    Sends env returnsTable f [.action (.select (q.intoTable name)),
      .action (.select (.readAll [] (.named (.bare name) none)))] (set.columns.map (·.info)) := by
  let m := ColumnMap.ofColumns set.columns []
  let f₁ : Findings := { f with context := { c with bindings := c.bindings.bindTable name m } }
  have hinto : statement returnsTable (.action (.select (q.intoTable name))) (env.limited (k + 1))
      f = .ok ((), f₁) := by
    have hsame := h
    rw [← q.within_intoTable name (k + 1)] at hsame
    rw [run_select hf hsame returnsTable, q.into_firstSelect_intoTable name]
    rfl
  have hfirst : statements returnsTable [.action (.select (q.intoTable name))] (env.limited (k + 1))
      f = .ok ((), f₁) :=
    run_bind_of_ok hinto
  -- The second statement starts from an idle context again.
  have hidle : f₁.Idle := hf.statements hfirst
  have hbound : f₁.context.nextStatement.bindings.table? name = some m := by
    change (c.bindings.tables.insert (Text.fold name) m).get? (Text.fold name) = some m
    rw [Keyed.get?_insert, if_pos rfl]
  obtain ⟨-, p, -, -, rfl, -⟩ := Analysis.outcome_query_eq_ok.1 h
  have hcolumns := q.columns_resultOf (env.limited (k + 1)).config p
  have hnone : Renames [] (ResultColumn.assignNames p.columns).length := .inl rfl
  obtain ⟨hvalues, hreadable⟩ := hnone.values_ofColumns
  rw [← hcolumns] at hvalues hreadable
  have hdepth : f₁.context.nextStatement.depth < (env.limited (k + 1)).config.maxNestingDepth := by
    rw [hidle.nextStatement.depth]
    exact Nat.succ_pos k
  obtain ⟨read, c', hread, hinfos⟩ := Analysis.outcome_readAll_local hdepth hlocal hbound hreadable
  have hread := run_select hidle hread returnsTable
  rw [hvalues] at hinfos
  exact UnlessTooDeep.of_ok (fun hl => StoppedOrSame.statements (env.fitsIn_limited hl) _ _ f)
    ((run_bind_of_ok hinto).trans (run_bind_of_ok hread)) ⟨read, rfl, hinfos⟩

end Walk

private theorem Name.isLocal_temporary (name : String) :
    (Name.bare ("#" ++ name)).isLocal = true := by
  simp [Name.isLocal, Name.bare, String.toList_append]

open Walk

/-- A query under CTEs has the same columns, in the same order, whether it stands for
itself, it is read back as a derived table or as one more CTE, or the temporary table that
it makes is read back. Names that are declared for the derived table or the CTE take the
place of the names of the columns. -/
theorem named_query_columns {name : String} {ctes : List Cte} (h : Nameable name ctes q)
    (hf : f.Idle) (env : Env) (returnsTable : Bool) :
    ∃ columns, (q.under ctes).HasColumns env f.context.nextStatement columns ∧
      (∀ names, Renames names columns.length →
        Sends env returnsTable f [.action (.select (.readAll ctes (.derived q name names)))]
          (ColumnInfo.renameAll names columns) ∧
        ((Name.bare name).isLocal = false →
          Sends env returnsTable f
            [.action (.select (.readAll (ctes ++ [⟨name, names, q⟩]) (.named (.bare name) none)))]
            (ColumnInfo.renameAll names columns))) ∧
      Sends env returnsTable f
        [.action (.select ((q.under ctes).intoTable ("#" ++ name))),
          .action (.select (.readAll [] (.named (.bare ("#" ++ name)) none)))] columns := by
  have hidle := hf.nextStatement
  obtain ⟨k, set, c', hd⟩ := hidle.exists_ok env (q.under ctes)
  refine ⟨_, .of_ok hidle hd, fun names hn => ⟨?_, fun hlocal => ?_⟩, ?_⟩
  · rw [List.length_map] at hn
    obtain ⟨read, c₂, hread, hcolumns⟩ := Analysis.outcome_readAll_derived h hidle hd hn
    rw [← hcolumns]
    exact .of_readAll hf hread returnsTable
  · rw [List.length_map] at hn
    obtain ⟨read, c₂, hread, hcolumns⟩ := Analysis.outcome_readAll_cte h hidle hlocal hd hn
    rw [← hcolumns]
    exact .of_readAll hf hread returnsTable
  · exact .of_intoTable hf hd (Name.isLocal_temporary name) returnsTable

/-- The names of the columns are those of any run that comes to its end. -/
private theorem Walk.Sends.names_eq {ss : List Statement} {names : List (List String)} (limit : Nat)
    (h : Sends env returnsTable f ss columns)
    (hrun : (statements returnsTable ss (env.limited limit) f).map
      (·.2.model.resultSets.map (·.columnNames)) =
      .ok names) : names = f.model.resultSets.map (·.columnNames) ++ [columns.map (·.name)] := by
  rcases h.all limit with he | ⟨p, hp, set, hsets, rfl⟩
  · rw [he] at hrun
    cases hrun
  · rw [hp] at hrun
    have hnames : p.2.model.resultSets.map (·.columnNames) = names := Except.ok.inj hrun
    rw [← hnames, hsets, List.map_append, List.map_singleton, List.map_map]
    rfl

private theorem Query.HasColumns.names_eq {names : List String} (limit : Nat)
    (h : q.HasColumns env c columns)
    (hrun : (((c.depthWithin limit).nested.query q).outcome (env.limited limit) c).1.map
      (·.columnNames) = .ok names) :
    columns.map (·.name) = names := by
  rcases h.all limit with he | ⟨set, hset, rfl⟩
  · rw [he] at hrun
    cases hrun
  · rw [hset] at hrun
    have hnames : set.columnNames = names := Except.ok.inj hrun
    rw [← hnames, List.map_map]
    rfl

/-- `SELECT items FROM source, …`. -/
private def selectFrom (items : List Item) (sources : List Source) : Query :=
  ⟨.select ⟨false, none, items, none, sources, none, [], none⟩, [], [], none, none⟩

/-- `SELECT x, x FROM a`. -/
def twiceFromA : Query :=
  let column : Item := .expr (.column ⟨none, none, "x"⟩) none
  selectFrom [column, column] [.named (.bare "a") none]

/-- `a AS (SELECT 1 AS x)`. -/
def oneAsA : Cte := ⟨"a", [], selectFrom [.expr (.literal (.int 1)) (some "x")] []⟩

/-- No object is known. -/
def Env.bare : Env := ⟨.builtinOnly {}, {}⟩

private theorem run_twiceFromA :
    (((({} : Context).nextStatement.depthWithin 3).nested.query (twiceFromA.under [oneAsA])).outcome
      (Env.bare.limited 3)
      ({} : Context).nextStatement).1.map (·.columnNames) = .ok ["x", "a_x"] := by rfl

/-- In `WITH a AS (SELECT 1 AS x) SELECT x, x FROM a` the second column has
a name that is made for it. -/
theorem named_query_columns_made_up :
    ∃ columns : List ColumnInfo, columns.map (·.name) = ["x", "a_x"] ∧
      Sends .bare false {}
        [.action (.select (.readAll [oneAsA] (.derived twiceFromA "d" ["u", "v"])))]
        (ColumnInfo.renameAll ["u", "v"] columns) ∧
      Sends .bare false {}
        [.action (.select
          (.readAll ([oneAsA] ++ [⟨"d", ["u", "v"], twiceFromA⟩]) (.named (.bare "d") none)))]
        (ColumnInfo.renameAll ["u", "v"] columns) ∧
      Sends .bare false {} [.action (.select ((twiceFromA.under [oneAsA]).intoTable ("#" ++ "d"))),
        .action (.select (.readAll [] (.named (.bare ("#" ++ "d")) none)))] columns := by
  have hnameable : Nameable "d" [oneAsA] twiceFromA := by
    refine ⟨rfl, Query.avoids_iff.2 ⟨by decide, fun r hr => by cases hr⟩, fun cte hm => ?_⟩
    rw [List.mem_singleton.1 hm]
    exact ⟨by decide, Query.avoids_iff.2 ⟨by decide, fun r hr => by cases hr⟩⟩
  obtain ⟨columns, hcolumns, hnamed, hinto⟩ := named_query_columns hnameable .start .bare false
  have hnames : columns.map (·.name) = ["x", "a_x"] := hcolumns.names_eq 3 run_twiceFromA
  have hlength : columns.length = 2 := by
    rw [← List.length_map (·.name), hnames]
    rfl
  have hrenames : Renames ["u", "v"] columns.length := .inr ⟨hlength.symm, by decide, by decide⟩
  exact ⟨columns, hnames, (hnamed _ hrenames).1, (hnamed _ hrenames).2 (by decide), hinto⟩

/-- `SELECT 1 AS x, 2 AS y`. -/
def oneAndTwo : Query :=
  selectFrom [.expr (.literal (.int 1)) (some "x"), .expr (.literal (.int 2)) (some "y")] []

private theorem exists_hasColumns_oneAndTwo :
    ∃ columns, oneAndTwo.HasColumns .bare ({} : Context).nextStatement columns ∧
      columns.map (·.name) = ["x", "y"] := by
  have hidle := Findings.Idle.start.nextStatement
  obtain ⟨k, set, c, h⟩ := hidle.exists_ok .bare oneAndTwo
  have hcolumns := Query.HasColumns.of_ok hidle h
  exact ⟨_, hcolumns, hcolumns.names_eq 3 rfl⟩

private theorem run_renamed_oneAndTwo :
    (statements false [.action (.select (.readAll [] (.derived oneAndTwo "d" ["A", "a"])))]
      (Env.bare.limited 3) {}).map
      (·.2.model.resultSets.map (·.columnNames)) = .ok [["A"]] := by rfl

private theorem run_local_oneAndTwo :
    (statements false
      [.action (.select (.readAll [⟨"#d", [], oneAndTwo⟩] (.named (.bare "#d") none)))]
      (Env.bare.limited 3) {}).map (·.2.model.resultSets.map (·.columnNames)) =
        .ok [["Column1"]] := by rfl

/-- Declared names that differ in case alone lose a column, and a CTE of the name of a
temporary table is not found. -/
theorem named_query_columns_lost :
    ∃ columns : List ColumnInfo, columns.map (·.name) = ["x", "y"] ∧
      oneAndTwo.HasColumns .bare ({} : Context).nextStatement columns ∧
      ¬Sends .bare false {} [.action (.select (.readAll [] (.derived oneAndTwo "d" ["A", "a"])))]
        (ColumnInfo.renameAll ["A", "a"] columns) ∧
      ¬Sends .bare false {}
        [.action (.select (.readAll [⟨"#d", [], oneAndTwo⟩] (.named (.bare "#d") none)))]
        columns := by
  obtain ⟨columns, hcolumns, hnames⟩ := exists_hasColumns_oneAndTwo
  refine ⟨columns, hnames, hcolumns, fun hsends => ?_, fun hsends => ?_⟩
  · have h := hsends.names_eq 3 run_renamed_oneAndTwo
    obtain ⟨first, second, rfl⟩ : ∃ first second, columns = [first, second] := by
      rw [← List.length_eq_two, ← List.length_map (·.name), hnames]
      rfl
    simp [ColumnInfo.renameAll] at h
  · have h := hsends.names_eq 3 run_local_oneAndTwo
    rw [hnames] at h
    exact absurd h (by decide)

end ResultShape
