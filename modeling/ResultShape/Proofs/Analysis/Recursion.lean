import ResultShape.Proofs.Analysis.Naming
import ResultShape.Proofs.Analysis.Replay
import ResultShape.Proofs.Typing.Nullability
/-! Recursion: a recursive CTE reports a column as never null only if that holds in every branch,
references to the CTE itself showing the columns of its leftmost branch. With the reported columns
in their place it may fail. -/
namespace ResultShape

/-- The leftmost operand of a set operation and the right sides that are
put to it one after the other. -/
def Body.branches : Body → List Body
  | .setOp _ left right => left.branches ++ [right]
  | b => [b]

/-- The context in which the query of a CTE is resolved once more while the CTE shows these columns
to itself. Nothing is kept of the CTE. -/
def Context.recomputing (cte : Cte) (shown : ColumnMap) (c : Context) : Context :=
  (((c.withCache (c.cteCache.erase (c.statement, Text.fold cte.name))).computing
    cte.name).setCteAnchor cte.name
    shown).inside cte.query

/-- Where a column is reported as never null, none of these columns may be null in its place. -/
def NotNullKept (reported columns : List ResultColumn) : Prop :=
  ∀ (i : Nat) (column : ResultColumn), reported[i]?.bind (·.isNullable) = some false →
    columns[i]? = some column →
    column.isNullable = some false

namespace NotNullKept

variable {reported columns : List ResultColumn}

private theorem refl (columns : List ResultColumn) : NotNullKept columns columns := by
  intro i column h hc
  rwa [hc, Option.bind_some] at h

private theorem trans {middle : List ResultColumn}
    (h₁ : ∀ i : Nat, reported[i]?.bind (·.isNullable) = some false →
      middle[i]?.bind (·.isNullable) = some false)
    (h₂ : NotNullKept middle columns) : NotNullKept reported columns :=
  fun i column h hc => h₂ i column (h₁ i h) hc

private theorem of_union {left right : Projection} {i : Nat}
    (h : (left.union right).columns[i]?.bind (·.isNullable) = some false) :
    left.columns[i]?.bind (·.isNullable) = some false ∧
      ∀ column, right.columns[i]? = some column → column.isNullable = some false := by
  rw [Projection.isNullable_union] at h
  obtain ⟨c, hc, h⟩ := Option.bind_eq_some_iff.1 h
  rw [hc, Option.bind_some]
  cases hr : right.columns[i]? with
  | none =>
    rw [hr] at h
    exact ⟨h, fun _ hcolumn => by cases hcolumn⟩
  | some other =>
    rw [hr] at h
    obtain ⟨hleft, hright⟩ := eitherNullable_eq_false_iff.1 h
    refine ⟨hleft, fun column hcolumn => ?_⟩
    cases hcolumn
    exact hright

end NotNullKept

open Context

namespace Analysis

variable {env : Env} {k : Nat} {c c' : Context}

/-- Every branch of a body that was projected is projected again where the CTE columns that the body
computed are kept, and none of its columns may be null that the body has as never null. -/
private theorem branches_again {b : Body} {p : Projection} (hanchored : c.Anchored)
    (hs : c.scopes = []) (h : (b.project (Nested.within k)).outcome env c = (.ok p, c')) :
    ∀ branch ∈ b.branches, ∃ p', NotNullKept p.columns p'.columns ∧
      ∀ cache, c'.GrowsTo cache →
        (branch.project (Nested.within k)).outcome env (c.withCache cache) =
        (.ok p', c.withCache cache) := by
  induction b using Body.branches.induct generalizing c c' p with
  | case1 op left right ih =>
    obtain ⟨l, c₁, hl, h⟩ := outcome_bind_eq_ok.1 h
    obtain ⟨r, c₂, hr, h⟩ := outcome_bind_eq_ok.1 h
    cases h
    -- The left side is done before the right side, which only adds to the cache that its branches
    -- are run in again.
    have hc₁ := Replays.eq_withCache_of_project hanchored hs hl
    obtain ⟨hkept₁, -, -⟩ := Replays.body env k left c l c₁ hanchored hl
    obtain ⟨hkept₂, hgrows₂, -⟩ := Replays.body env k right c₁ r _ hkept₁.anchored hr
    intro branch hbranch
    rw [Body.branches, List.mem_append, List.mem_singleton] at hbranch
    rcases hbranch with hbranch | rfl
    · obtain ⟨p', hp', hagain⟩ := ih hanchored hs hl branch hbranch
      refine ⟨p', .trans (fun i hi => (NotNullKept.of_union hi).1) hp', fun cache hcache => ?_⟩
      exact hagain cache (hgrows₂.trans hkept₂.statement hkept₂.ctesInProgress hcache)
    · refine ⟨r, fun i column hi => (NotNullKept.of_union hi).2 column, fun cache hcache => ?_⟩
      have hsame : c₁.withCache cache = c.withCache cache := by
        rw [hc₁]
        rfl
      rw [← hsame]
      exact Replays.project_again hkept₁.anchored ((congrArg Context.scopes hc₁).trans hs) hr hcache
  | case2 b hb =>
    intro branch hbranch
    have hself : b.branches = [b] := by
      rw [Body.branches]
      exact hb
    rw [hself, List.mem_singleton] at hbranch
    subst hbranch
    exact ⟨p, .refl _, fun cache hcache => Replays.project_again hanchored hs h hcache⟩

/-- Once a CTE is computed, its query is resolved again in the context that it was resolved in, with
the columns of CTEs that it computed. -/
private theorem recomputing_eq {cte : Cte} {c₁ c₂ : Context} {anchor : List ResultColumn}
    {m : ColumnMap}
    (hanchored : c.Anchored) (hnone : c.cachedCte? cte.name = none)
    (hp : c.isCteInProgress cte.name = false)
    (ha : ((Nested.within k).anchor cte.query).outcome env (c.computing cte.name) =
      (.ok anchor, c₁))
    (hm : (computeCte (Nested.within k) cte).outcome env (c.computing cte.name) = (.ok m, c₂))
    (hkept : Kept Eq c (c.computed cte.name m c₂)) (shown : ColumnMap) :
    (c.computed cte.name m c₂).recomputing cte shown =
      ((c₁.setCteAnchor cte.name shown).inside cte.query).withCache c₂.cteCache := by
  have hwithin := Replays.within env k cte.query
  obtain ⟨hs, hgrows⟩ :=
    Replays.of_computeCte hwithin.1 hwithin.2 (hanchored.computing cte.name)
      (isCteInProgress_computing hp) hm
  -- While the CTE is being computed nothing is kept of it, so erasing it gives back the cache of
  -- that time.
  have hkey : c₂.cteCache.get? (c₂.statement, Text.fold cte.name) = none := by
    have hin := hgrows.inProgress _ (List.contains_iff_mem.1 (isCteInProgress_computing hp))
    rw [hs, hin, computing_eq hp]
    exact hnone
  have herase : (c.computed cte.name m c₂).cteCache.erase (c₂.statement, Text.fold cte.name) =
      c₂.cteCache := by
    have hcache : (c.computed cte.name m c₂).cteCache =
        c₂.cteCache.insert (c₂.statement, Text.fold cte.name) m := rfl
    rw [hcache, Keyed.erase_insert, Keyed.erase_eq_self (Keyed.get?_eq_none_iff.1 hkey)]
  have hstatement : (c.computed cte.name m c₂).statement = c₂.statement := rfl
  have hcomputing : (c.withCache c₂.cteCache).computing cte.name = c₁.withCache c₂.cteCache := by
    rw [Replays.eq_withCache_of_anchor (hanchored.computing cte.name) rfl ha, computing_eq hp]
    exact computing_eq (c := c.withCache c₂.cteCache) hp
  rw [recomputing, hstatement, herase, hkept.eq_withCache rfl]
  change (((c.withCache c₂.cteCache).computing cte.name).setCteAnchor cte.name shown).inside
    cte.query = _
  rw [hcomputing]
  rfl

/-- Where a CTE is defined by a set operation and its columns are computed, each branch of
the definition is resolved again with the CTE showing the columns of its leftmost branch to
itself, which are those that it showed while it was computed. Then no column that is
reported as never null may be null. -/
theorem reported_not_null_again {cte : Cte} {m : ColumnMap} (hreachable : c.Reachable)
    (hnone : c.cachedCte? cte.name = none) (hp : c.isCteInProgress cte.name = false)
    (hb : cte.query.body.isSetOp = true)
    (h : (cteColumns (Nested.within (k + 1)) cte).outcome env c = (.ok m, c')) :
    ∃ anchor reported c₁,
      ((Nested.within (k + 1)).anchor cte.query).outcome env (c.computing cte.name) =
        (.ok anchor, c₁) ∧
      m = .ofColumns reported cte.columns ∧
      ∀ branch ∈ cte.query.body.branches, ∃ p c₂,
        (branch.project (Nested.within k)).outcome env
          (c'.recomputing cte (.ofColumns anchor cte.columns)) =
          (.ok p, c₂) ∧ NotNullKept reported p.columns := by
  have hanchored := hreachable.anchored
  have hkept : Kept Eq c c' := by
    have hkeeps := Keeps.columns_within env (k + 1) c.ctesInProgress cte c rfl hanchored
    rwa [h] at hkeeps
  rcases outcome_cteColumns_eq_ok.1 h with ⟨hm, -⟩ | ⟨-, hin, -⟩ | ⟨-, -, c₂, hm, rfl⟩
  · cases hnone.symm.trans hm
  · cases hp.symm.trans hin
  obtain ⟨_, set, hanchors, hset, rfl⟩ := outcome_computeCte_eq_ok.1 hm
  cases hanchors with
  | none hn => cases hb.symm.trans hn
  | @branch c₁ anchor _ ha =>
    obtain ⟨-, p, c₃, hproject, rfl, rfl⟩ := outcome_query_eq_ok.1 hset
    refine ⟨anchor, _, c₁, ha, rfl, fun branch hbranch => ?_⟩
    have hc₁ := Replays.eq_withCache_of_anchor (hanchored.computing cte.name) rfl ha
    have hin : c₁.isCteInProgress cte.name = true := by
      rw [hc₁]
      exact isCteInProgress_computing hp
    have hanchored₁ : c₁.Anchored := by
      rw [hc₁]
      exact hanchored.computing cte.name
    let inside := (c₁.setCteAnchor cte.name (.ofColumns anchor cte.columns)).inside cte.query
    have hinside : inside.Anchored := (Step.setCteAnchor c₁ cte.name _ hin).anchored hanchored₁
    have hscopes : inside.scopes = [] := congrArg Context.scopes hc₁
    obtain ⟨p', hp', hagain⟩ := branches_again hinside hscopes hproject branch hbranch
    rw [recomputing_eq hanchored hnone hp ha hm hkept, Query.columns_resultOf]
    exact ⟨p', _, hagain c₃.cteCache (.refl c₃), .trans
      (fun i hi => (ResultColumn.isNullable_assignNames p.columns i).symm.trans hi) hp'⟩

end Analysis

/-- `SELECT value, … FROM source, …`. -/
private def selectAll (values : List Expr) (sources : List Source) : Body :=
  .select ⟨false, none, values.map (.expr · none), none, sources, none, [], none⟩

/-- `SELECT b, c, c FROM r`. -/
def shiftedColumns : Body :=
  let column (name : String) : Expr := .column ⟨none, none, name⟩
  selectAll [column "b", column "c", column "c"] [.named (.bare "r") none]

/-- `r (a, b, c) AS (SELECT 1, 2, NULL UNION ALL SELECT b, c, c FROM r)`. -/
def shiftingCte : Cte :=
  let anchor := selectAll [.literal (.int 1), .literal (.int 2), .literal .null] []
  ⟨"r", ["a", "b", "c"], ⟨.setOp .unionAll anchor shiftedColumns, [], [], none, none⟩⟩

open Analysis

/-- What a reference to the CTE comes to under its own `WITH` clause, where no object is known. -/
def shiftingRun : Except AnalysisError ColumnMap × Context :=
  (cteColumns (Nested.within 2) shiftingCte).outcome ⟨.builtinOnly {}, {}⟩
    (({} : Context).pushCtes [shiftingCte])

private def shiftingColumns : ColumnMap := shiftingRun.1.toOption.getD default

private theorem shiftingRun_eq : shiftingRun = (.ok shiftingColumns, shiftingRun.2) := by rfl

/-- The first column is reported as never null, and the second branch makes no null of it while
references to the CTE show `1`, `2` and a null. -/
theorem reported_not_null_again_shifting :
    ∃ m c' anchor reported p c₂, shiftingRun = (.ok m, c') ∧
      m.values.map (·.isNullable) = [some false, some true, some true] ∧
      m = .ofColumns reported shiftingCte.columns ∧
      (shiftedColumns.project (Nested.within 1)).outcome ⟨.builtinOnly {}, {}⟩
        (c'.recomputing shiftingCte (.ofColumns anchor shiftingCte.columns)) = (.ok p, c₂) ∧
      NotNullKept reported p.columns := by
  have hreachable : (({} : Context).pushCtes [shiftingCte]).Reachable :=
    .step .start (.pushCtes {} _)
  obtain ⟨anchor, reported, c₁, -, hm, hagain⟩ :=
    reported_not_null_again hreachable rfl rfl rfl shiftingRun_eq
  obtain ⟨p, c₂, hp, hkept⟩ :=
    hagain shiftedColumns (List.mem_append_right _ (List.mem_singleton_self _))
  exact ⟨_, _, anchor, reported, p, c₂, shiftingRun_eq, rfl, hm, hp, hkept⟩

/-- The first column is reported as never null. Where references to the CTE show the reported
columns, of which the second may be null, the second branch has a null in its place. -/
theorem reported_not_null_lost_shifting :
    ∃ m c' p c₂, shiftingRun = (.ok m, c') ∧
      m.values.map (·.isNullable) = [some false, some true, some true] ∧
      (shiftedColumns.project (Nested.within 1)).outcome ⟨.builtinOnly {}, {}⟩
        (c'.recomputing shiftingCte m) =
        (.ok p, c₂) ∧ p.columns.map (·.isNullable) = [some true, some true, some true] := by
  let again := (shiftedColumns.project (Nested.within 1)).outcome ⟨.builtinOnly {}, {}⟩
    (shiftingRun.2.recomputing shiftingCte shiftingColumns)
  have hagain : again = (.ok (again.1.toOption.getD ⟨[], false⟩), again.2) := by rfl
  exact ⟨_, _, _, _, shiftingRun_eq, rfl, hagain, rfl⟩

end ResultShape
