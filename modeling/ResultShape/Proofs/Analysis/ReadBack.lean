import ResultShape.Proofs.Analysis.Naming
import ResultShape.Proofs.Analysis.Success
import ResultShape.Proofs.Scope.Columns
import ResultShape.Proofs.Scope.Origin
/-! Reading back: the star over one source whose columns are known gives these columns, in their
order and under the names that they are known by. -/
namespace ResultShape

/-- What is known of a projected column, under its own name. -/
def ResultColumn.info (c : ResultColumn) : ColumnInfo := .ofColumn c.name c

namespace ColumnMap

theorem renamed_nil (columns : List ResultColumn) :
    renamed [] columns = columns.map ResultColumn.info := by
  induction columns with
  | nil => rfl
  | cons c cs ih => simp only [renamed, List.map_cons, List.tail_nil, ih]; rfl

theorem renamed_eq_zipWith {renames : List String} {columns : List ResultColumn}
    (h : renames.length = columns.length) :
    renamed renames columns = renames.zipWith .ofColumn columns := by
  induction columns generalizing renames with
  | nil => simp [renamed]
  | cons c cs ih =>
    cases renames with
    | nil => cases h
    | cons name names =>
      simp only [renamed, List.zipWith_cons_cons, List.tail_cons, ih (Nat.succ.inj h)]; rfl

theorem keysOf_eq_map (renames : List String) (columns : List ResultColumn) :
    keysOf renames columns = (renamed renames columns).map fun info => Text.fold info.name := by
  induction columns generalizing renames with
  | nil => rfl
  | cons c cs ih => simp only [keysOf, renamed, List.map_cons, ih]; rfl

end ColumnMap

/-- Columns that all have a name and keep it. -/
structure Readable (infos : List ColumnInfo) : Prop where
  nodup : (infos.map fun info => Text.fold info.name).Nodup
  nonempty : ∀ info ∈ infos, info.name ≠ ""

namespace Readable

/-- Named columns are readable under their own names. -/
theorem assignNames (columns : List ResultColumn) :
    Readable ((ResultColumn.assignNames columns).map (·.info)) := by
  refine ⟨?_, ?_⟩
  · rw [List.map_map]
    exact ResultColumn.nodup_assignNames columns
  · intro info hi
    obtain ⟨c, hc, rfl⟩ := List.mem_map.1 hi
    exact ResultColumn.name_ne_empty_of_mem_assignNames hc

private theorem map_name_zipWith {names : List String} {columns : List ResultColumn}
    (hl : names.length = columns.length) :
    (names.zipWith ColumnInfo.ofColumn columns).map (·.name) = names := by
  induction names generalizing columns with
  | nil => rfl
  | cons name names ih =>
    cases columns with
    | nil => cases hl
    | cons c cs => simp only [List.zipWith_cons_cons, List.map_cons, ih (Nat.succ.inj hl)]; rfl

/-- Columns are readable under as many distinct names. -/
theorem zipWith {names : List String} {columns : List ResultColumn}
    (hl : names.length = columns.length)
    (hn : (names.map Text.fold).Nodup) (he : ∀ name ∈ names, name ≠ "") :
    Readable (names.zipWith .ofColumn columns) := by
  refine ⟨?_, fun info hi => ?_⟩
  · have hmap : ((names.zipWith ColumnInfo.ofColumn columns).map fun info => Text.fold info.name) =
        names.map Text.fold := by
      rw [← map_name_zipWith hl, List.map_map]
      rw [map_name_zipWith hl]
      rfl
    rwa [hmap]
  · have hname := List.mem_map_of_mem (f := (·.name)) hi
    rw [map_name_zipWith hl] at hname
    exact he _ hname

end Readable

/-- The columns under other names, by position, where names are given. -/
def ColumnInfo.renameAll (names : List String) (infos : List ColumnInfo) : List ColumnInfo :=
  if names.isEmpty then infos else names.zipWith (fun name info => { info with name }) infos

/-- A list of names for so many columns, or none at all. All differ after folding. -/
def Renames (names : List String) (count : Nat) : Prop :=
  names = [] ∨ names.length = count ∧ (names.map Text.fold).Nodup ∧ ∀ name ∈ names, name ≠ ""

/-- What is kept of named columns under other names is all of them, in order, and it is readable. -/
theorem Renames.values_ofColumns {names : List String} {columns : List ResultColumn}
    (h : Renames names (ResultColumn.assignNames columns).length) :
    let m := ColumnMap.ofColumns (ResultColumn.assignNames columns) names
    m.values = ColumnInfo.renameAll names ((ResultColumn.assignNames columns).map (·.info)) ∧
      Readable m.values := by
  intro m
  have hrenamed : ColumnMap.renamed names (ResultColumn.assignNames columns) =
      ColumnInfo.renameAll names ((ResultColumn.assignNames columns).map (·.info)) ∧
      Readable (ColumnMap.renamed names (ResultColumn.assignNames columns)) := by
    rcases h with rfl | ⟨hl, hn, he⟩
    · rw [ColumnMap.renamed_nil]
      exact ⟨rfl, .assignNames columns⟩
    · rw [ColumnMap.renamed_eq_zipWith hl]
      refine ⟨?_, .zipWith hl hn he⟩
      unfold ColumnInfo.renameAll
      split
      · rename_i hempty
        rw [List.isEmpty_iff.1 hempty] at hl ⊢
        rw [List.eq_nil_of_length_eq_zero hl.symm]
        rfl
      · rw [List.zipWith_map_right]
        rfl
  have hvalues : m.values = ColumnMap.renamed names (ResultColumn.assignNames columns) := by
    refine ColumnMap.values_ofColumns ?_
    rw [ColumnMap.keysOf_eq_map]
    exact hrenamed.2.nodup
  rw [hvalues]
  exact hrenamed

/-- `SELECT * FROM source`, under a `WITH` clause. -/
def Query.readAll (ctes : List Cte) (source : Source) : Query :=
  ⟨.select ⟨false, none, [.star none], none, [source], none, [], none⟩, ctes, [], none, none⟩

namespace Analysis

variable {env : Env} {k : Nat} {n : Nested} {c c₁ : Context}

theorem outcome_added_of_ok {x : Analysis Unit} (h : x.outcome env c = (.ok (), c₁)) :
    (added x).outcome env c = (.ok (c.scopes.size, c₁.scopes.size), c₁) := by
  unfold added
  rw [outcome_bind_of_ok (outcome_get env c), outcome_bind_of_ok h]
  rfl

/-- A star in the scope of one entry stands for the columns of that entry. -/
private theorem outcome_star {s : Scope} {rest : ScopeStack} {e : Entry} {m : ColumnMap}
    (hs : c.scopes = s :: rest)
    (he : s.entries = [e]) (hm : e.columns = .known m) (n : Nested) (env : Env) :
    ∃ c', (Item.projectAll n [.star none]).outcome env c =
      (.ok ⟨m.values.map (·.project e.visibleName e.forceNullable), true⟩, c') := by
  have hload : e.load env.catalog = e := by
    cases e
    cases hm
    rfl
  have hexpand : ScopeStack.expand env.catalog none c.scopes =
      (some (m.values.map (·.project e.visibleName e.forceNullable)),
        s.load env.catalog :: rest) := by
    rw [hs]
    simp [ScopeStack.expand, ScopeStack.expandAll, Scope.load, he, hload, Entry.projectAll?,
      Entry.columnMap?, hm]
  refine ⟨{ c with scopes := s.load env.catalog :: rest }, ?_⟩
  change ((.ok ⟨[(ScopeStack.expand env.catalog none c.scopes).1.getD _].flatten, true⟩,
    { c with scopes := (ScopeStack.expand env.catalog none c.scopes).2 }) : Except AnalysisError
      Projection × Context) = _
  rw [hexpand]
  simp

/-- Where the source leaves one entry with readable columns, these are what is read from it. -/
theorem outcome_readAll {ctes : List Cte} {source : Source} {range : Nat × Nat} {s : Scope}
    {rest : ScopeStack} {e : Entry} {m : ColumnMap} (hd : c.depth < env.config.maxNestingDepth)
    (hr : (source.register (Nested.within k)).outcome env
      (c.inside (.readAll ctes source)).pushScope = (.ok range, c₁))
    (hs : c₁.scopes = s :: rest) (he : s.entries = [e]) (hm : e.columns = .known m)
    (hf : e.forceNullable = false) (hreadable : Readable m.values) :
    ∃ set c', ((Nested.within (k + 1)).query (.readAll ctes source)).outcome env c = (.ok set, c') ∧
      set.columns.map (·.info) = m.values := by
  obtain ⟨c₂, hstar⟩ := outcome_star hs he hm (Nested.within k) env
  rw [hf] at hstar
  have hsources : ([source].forM fun t => discard (t.register (Nested.within k))).outcome env
      (c.inside (.readAll ctes source)).pushScope = (.ok (), c₁) :=
    outcome_bind_eq_ok.2 ⟨(), c₁, outcome_map_eq_ok.2 ⟨range, hr, rfl⟩, rfl⟩
  have hproject : ((Query.readAll ctes source).body.project (Nested.within k)).outcome env
      (c.inside (.readAll ctes source)) =
        (.ok ⟨m.values.map (·.project e.visibleName false), true⟩, c₂.popScope) :=
    outcome_between_eq_ok.2 ⟨c₂, outcome_bind_eq_ok.2 ⟨(), c₁, hsources, hstar⟩, rfl⟩
  refine ⟨_, _, outcome_query_eq_ok.2 ⟨hd, _, _, hproject, rfl, rfl⟩, ?_⟩
  have hinfo : (m.values.map (·.project e.visibleName false)).map (·.info) = m.values := by
    rw [List.map_map]
    exact List.map_id _
  -- The names are distinct and not empty, so they are given once more as they are.
  rw [Query.columns_resultOf, ResultColumn.assignNames_eq_self, hinfo]
  · intro column hcolumn
    obtain ⟨info, hi, rfl⟩ := List.mem_map.1 hcolumn
    exact ⟨rfl, hreadable.nonempty info hi⟩
  · rw [List.map_map]
    exact hreadable.nodup

end Analysis

end ResultShape
