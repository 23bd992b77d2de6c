import ResultShape.Proofs.Analysis.Naming
import ResultShape.Proofs.Analysis.ReadBack
import ResultShape.Proofs.Analysis.Recall
import ResultShape.Proofs.Analysis.Recursion
import ResultShape.Proofs.Typing.Nullability
/-! Self-references: a recursive CTE shows to itself the columns that it has in
the end, up to nullability. -/
namespace ResultShape

/-- Columns that are null otherwise, by their place and by how they were null. -/
def ResultColumn.mapNullable (f : Nat → Option Bool → Option Bool) (columns : List ResultColumn) :
    List ResultColumn :=
  columns.mapIdx fun i c => { c with isNullable := f i c.isNullable }

namespace ResultColumn

variable {f : Nat → Option Bool → Option Bool}

theorem mapNullable_cons (c : ResultColumn) (cs : List ResultColumn) :
    mapNullable f (c :: cs) = { c with isNullable := f 0 c.isNullable } ::
      mapNullable (fun i => f (i + 1)) cs :=
  List.mapIdx_cons

theorem getElem?_mapNullable (columns : List ResultColumn) (i : Nat) :
    (mapNullable f columns)[i]? = columns[i]?.map fun c =>
      { c with isNullable := f i c.isNullable } :=
  List.getElem?_mapIdx

theorem mapNullable_self (columns : List ResultColumn) :
    mapNullable (fun _ isNullable => isNullable) columns = columns := by
  refine List.ext_getElem? fun i => ?_
  rw [getElem?_mapNullable]
  cases columns[i]? with
  | none => rfl
  | some c =>
    cases c
    rfl

theorem mapNullable_mapNullable (f g : Nat → Option Bool → Option Bool)
    (columns : List ResultColumn) :
    mapNullable g (mapNullable f columns) =
      mapNullable (fun i isNullable => g i (f i isNullable)) columns :=
  List.mapIdx_mapIdx

private theorem assignFrom_mapNullable (position : Nat) (used : List String)
    (columns : List ResultColumn) :
    assignFrom position used (mapNullable f columns) =
      mapNullable f (assignFrom position used columns) := by
  induction columns generalizing f position used with
  | nil => rfl
  | cons c cs ih =>
    rw [mapNullable_cons, assignFrom, ih, assignFrom, mapNullable_cons]
    rfl

/-- Names do not depend on nullability. -/
theorem assignNames_mapNullable (columns : List ResultColumn) :
    assignNames (mapNullable f columns) = mapNullable f (assignNames columns) :=
  assignFrom_mapNullable 0 [] columns

end ResultColumn

namespace ColumnMap

open ResultColumn

variable {f : Nat → Option Bool → Option Bool} {renames : List String} {columns : List ResultColumn}

theorem keysOf_mapNullable (f : Nat → Option Bool → Option Bool) (renames : List String)
    (columns : List ResultColumn) :
    keysOf renames (mapNullable f columns) = keysOf renames columns := by
  rw [keysOf_eq_map, keysOf_eq_map]
  refine List.ext_getElem? fun i => ?_
  simp only [List.getElem?_map, getElem?_renamed, getElem?_mapNullable, Option.map_map]
  rfl

/-- A column that is null otherwise is kept under the key that it had, and
nothing else of it is changed. -/
theorem get?_ofColumns_mapNullable {key : String} {info : ColumnInfo}
    (h : (ofColumns columns renames).get? key = some info) :
    ∃ i, (keysOf renames columns).idxOf? key = some i ∧
      (ofColumns (mapNullable f columns) renames).get? key =
        some { info with isNullable := f i info.isNullable } := by
  rw [get?_ofColumns_eq] at h
  obtain ⟨i, hi, h⟩ := Option.bind_eq_some_iff.1 h
  rw [getElem?_renamed, Option.map_eq_some_iff] at h
  obtain ⟨c, hc, rfl⟩ := h
  refine ⟨i, hi, ?_⟩
  rw [get?_ofColumns_eq, keysOf_mapNullable, hi, Option.bind_some, getElem?_renamed,
    getElem?_mapNullable, hc]
  rfl

end ColumnMap

namespace Projection

/-- How the columns in a place are null, as far as the projections have a column there. -/
def nullablesAt (ps : List Projection) (i : Nat) : List (Option Bool) :=
  ps.filterMap fun p => p.columns[i]?.map (·.isNullable)

private theorem columns_union (p q : Projection) :
    (p.union q).columns =
      ResultColumn.mapNullable (fun i isNullable => anyNullable (isNullable :: nullablesAt [q] i))
        p.columns := by
  refine List.ext_getElem? fun i => ?_
  rw [ResultColumn.getElem?_mapNullable, union, List.getElem?_mapIdx]
  congr 1
  funext c
  cases hq : q.columns[i]? with
  | none =>
    simp only [nullablesAt, List.filterMap_cons, List.filterMap_nil, hq, Option.map_none,
      anyNullable_singleton]
    cases c
    rfl
  | some other =>
    simp only [nullablesAt, List.filterMap_cons, List.filterMap_nil, hq, Option.map_some,
      anyNullable_pair]

/-- Operands that are put to a projection one after the other change nothing but nullability. -/
theorem columns_foldl_union (p : Projection) (ps : List Projection) :
    (ps.foldl union p).columns =
      ResultColumn.mapNullable (fun i isNullable => anyNullable (isNullable :: nullablesAt ps i))
        p.columns := by
  induction ps generalizing p with
  | nil =>
    simp only [List.foldl_nil, nullablesAt, List.filterMap_nil, anyNullable_singleton]
    exact (ResultColumn.mapNullable_self p.columns).symm
  | cons q qs ih =>
    have hplace (i : Nat) : nullablesAt (q :: qs) i = nullablesAt [q] i ++ nullablesAt qs i := by
      rw [nullablesAt, ← List.singleton_append, List.filterMap_append]
      rfl
    rw [List.foldl_cons, ih, columns_union, ResultColumn.mapNullable_mapNullable]
    simp only [anyNullable_anyNullable, List.cons_append, hplace]

end Projection

open Context

namespace Analysis

variable {env : Env} {k : Nat} {n : Nested} {c c' : Context}

/-- A body is projected by projecting its leftmost operand and then what is put to it. -/
theorem outcome_branches {b : Body} {p : Projection}
    (h : (b.project n).outcome env c = (.ok p, c')) :
    ∃ first rest c₁, (b.leftmost.project n).outcome env c = (.ok first, c₁) ∧
      (b.branches.mapM (Body.project n)).outcome env c = (.ok (first :: rest), c') ∧
      p = rest.foldl Projection.union first := by
  induction b using Body.branches.induct generalizing p c' with
  | case1 op left right ih =>
    obtain ⟨l, c₁, hl, h⟩ := outcome_bind_eq_ok.1 h
    obtain ⟨r, c₂, hr, h⟩ := outcome_bind_eq_ok.1 h
    cases h
    obtain ⟨first, rest, c₃, hleftmost, hbranches, rfl⟩ := ih hl
    refine ⟨first, rest ++ [r], c₃, hleftmost, ?_, ?_⟩
    · rw [Body.branches, List.mapM_append]
      refine outcome_bind_eq_ok.2
        ⟨first :: rest, c₁, hbranches, outcome_bind_eq_ok.2 ⟨[r], c', ?_, rfl⟩⟩
      rw [List.mapM_cons]
      exact outcome_bind_eq_ok.2 ⟨r, c', hr, rfl⟩
    · rw [List.foldl_append]
      rfl
  | case2 b hb =>
    have hleftmost : b.leftmost = b := by
      rw [Body.leftmost]
      exact hb
    have hbranches : b.branches = [b] := by
      rw [Body.branches]
      exact hb
    refine ⟨p, [], c', hleftmost.symm ▸ h, ?_, rfl⟩
    rw [hbranches, List.mapM_cons]
    exact outcome_bind_eq_ok.2 ⟨p, c', h, rfl⟩

section
variable {cte : Cte} {first : Projection} {d : Context} (hanchored : c.Anchored)
  (hscopes : c.scopes = []) (hwith : cte.query.ctes = [])
  (hfirst : (cte.query.body.leftmost.project (Nested.within k)).outcome env
    { c with depth := c.depth + 1 } = (.ok first, d))
  (shown : ColumnMap)

include hanchored hscopes hwith hfirst

/-- Outside all scopes the leftmost branch leaves nothing but columns of CTEs, so the
body is projected where it was. -/
private theorem inside_eq :
    (d.leave.setCteAnchor cte.name shown).inside cte.query =
      ((({ c with depth := c.depth + 1 } : Context).withCache d.cteCache).setCteAnchor cte.name
        shown).pushCtes [] := by
  have hd :=
    Replays.eq_withCache_of_project (c := { c with depth := c.depth + 1 }) hanchored hscopes hfirst
  generalize d.cteCache = cache at hd ⊢
  subst hd
  rw [Context.inside, hwith]
  rfl

/-- The second time the leftmost branch projects the same, unless it refers to the CTE. -/
private theorem outcome_leftmost_again (hself : ¬ cte.query.body.leftmost.RefersTo cte.name) :
    ∃ c₁, (cte.query.body.leftmost.project (Nested.within k)).outcome env
      ((d.leave.setCteAnchor cte.name shown).inside cte.query) = (.ok first, c₁) := by
  rw [inside_eq hanchored hscopes hwith hfirst shown]
  have halike := AlikeBut.setCteAnchor cte.name { c with depth := c.depth + 1 } d.cteCache shown
  exact ⟨_, (Recalls.body env k hself).2 { c with depth := c.depth + 1 } first d hanchored hfirst _
    halike (.refl d)⟩

/-- While the body is projected, a reference to the CTE gets what the CTE shows to itself. -/
private theorem outcome_self_reference (hp : c.isCteInProgress cte.name = true)
    (hnone : c.cachedCte? cte.name = none) :
    let inside := (d.leave.setCteAnchor cte.name shown).inside cte.query
    ∀ n scopes depth cteFrames cteCache, inside.GrowsTo cteCache →
      (cteColumns n cte).outcome env { inside with scopes, depth, cteFrames, cteCache } =
        (.ok shown, { inside with scopes, depth, cteFrames, cteCache }) := by
  intro inside n scopes depth cteFrames cteCache hcache
  obtain ⟨-, hgrows, -⟩ :=
    Replays.body env k _ { c with depth := c.depth + 1 } first d hanchored hfirst
  have hmem : Text.fold cte.name ∈ c.ctesInProgress := List.contains_iff_mem.1 hp
  have hkept := hgrows.inProgress _ hmem
  simp only [inside, inside_eq hanchored hscopes hwith hfirst shown] at hcache ⊢
  refine outcome_cteColumns_eq_ok.2 (.inr (.inl ⟨?_, hp, ?_, rfl⟩))
  · exact ((hcache.inProgress _ hmem).trans hkept).trans hnone
  · have hshown := Keyed.get?_insert c.cteAnchors (Text.fold cte.name) (Text.fold cte.name) shown
    rw [if_pos rfl] at hshown
    exact congrArg (fun m : Option ColumnMap => m.getD .empty) hshown

end

/-- Where a CTE is defined by a set operation that has no `WITH` clause and whose leftmost branch
does not refer to it, it shows to itself the columns that it has in the end. The leftmost branch is
projected twice and names the same columns; what is put to it changes nothing but nullability. -/
theorem self_reference_sees_columns {cte : Cte} {m : ColumnMap} (hreachable : c.Reachable)
    (hnone : c.cachedCte? cte.name = none) (hp : c.isCteInProgress cte.name = false)
    (hset : cte.query.body.isSetOp = true) (hwith : cte.query.ctes = [])
    (hself : ¬ cte.query.body.leftmost.RefersTo cte.name)
    (h : (cteColumns (Nested.within (k + 1)) cte).outcome env c = (.ok m, c')) :
    ∃ anchor c₁ first rest c₂,
      ((Nested.within (k + 1)).anchor cte.query).outcome env (c.computing cte.name) =
        (.ok anchor, c₁) ∧
      let shown := ColumnMap.ofColumns anchor cte.columns
      let inside := (c₁.setCteAnchor cte.name shown).inside cte.query
      (∀ n scopes depth cteFrames cteCache, inside.GrowsTo cteCache →
        (cteColumns n cte).outcome env { inside with scopes, depth, cteFrames, cteCache } =
          (.ok shown, { inside with scopes, depth, cteFrames, cteCache })) ∧
      (cte.query.body.branches.mapM (Body.project (Nested.within k))).outcome env inside =
        (.ok (first :: rest), c₂) ∧
      ResultColumn.assignNames first.columns = anchor ∧ m.keys = shown.keys ∧
      ∀ key info, shown.get? key = some info →
        ∃ i, (ColumnMap.keysOf cte.columns anchor).idxOf? key = some i ∧
        m.get? key = some { info with
          isNullable := anyNullable (info.isNullable :: Projection.nullablesAt rest i) } := by
  have hanchored : (c.computing cte.name).Anchored := hreachable.anchored.computing cte.name
  have hin : (c.computing cte.name).isCteInProgress cte.name = true := isCteInProgress_computing hp
  rcases outcome_cteColumns_eq_ok.1 h with ⟨hm, -⟩ | ⟨-, hm, -⟩ | ⟨-, -, c₂, hm, -⟩
  · cases hnone.symm.trans hm
  · cases hp.symm.trans hm
  obtain ⟨_, set, hanchors, hquery, rfl⟩ := outcome_computeCte_eq_ok.1 hm
  cases hanchors with
  | none hn => cases hset.symm.trans hn
  | @branch c₁ anchor _ ha =>
    obtain ⟨-, p, c₃, hproject, rfl, -⟩ := outcome_query_eq_ok.1 hquery
    obtain ⟨first, rest, c₄, hleftmost, hbranches, rfl⟩ := outcome_branches hproject
    obtain ⟨-, p₁, d, hfirst, rfl, rfl⟩ := outcome_anchor_eq_ok.1 ha
    have hunkept : (c.computing cte.name).cachedCte? cte.name = none := by
      rw [computing_eq hp]
      exact hnone
    obtain ⟨_, hagain⟩ := outcome_leftmost_again hanchored rfl hwith hfirst _ hself
    cases hagain.symm.trans hleftmost
    have hcolumns : (cte.query.resultOf env.config (rest.foldl Projection.union first)).columns =
        ResultColumn.mapNullable (fun i isNullable =>
          anyNullable (isNullable :: Projection.nullablesAt rest i))
          (ResultColumn.assignNames first.columns) := by
      rw [Query.columns_resultOf, Projection.columns_foldl_union,
        ResultColumn.assignNames_mapNullable]
    refine ⟨_, _, first, rest, c₃, ha,
      outcome_self_reference hanchored rfl hwith hfirst _ hin hunkept, hbranches, rfl, ?_, ?_⟩
    · rw [hcolumns]
      exact ColumnMap.keys_ofColumns_congr (ColumnMap.keysOf_mapNullable _ _ _)
    · intro key info hinfo
      rw [hcolumns]
      exact ColumnMap.get?_ofColumns_mapNullable hinfo

/-- The second column is never null in the leftmost branch, and may be null in the end. -/
theorem self_reference_sees_columns_shifting :
    ∃ m c' anchor c₁, shiftingRun = (.ok m, c') ∧
      ((Nested.within 2).anchor shiftingCte.query).outcome ⟨.builtinOnly {}, {}⟩
        ((({} : Context).pushCtes [shiftingCte]).computing "r") = (.ok anchor, c₁) ∧
      m.keys = ["a", "b", "c"] ∧
      (ColumnMap.ofColumns anchor shiftingCte.columns).keys = ["a", "b", "c"] ∧
      m.values.map (·.isNullable) = [some false, some true, some true] ∧
      anchor.map (·.isNullable) = [some false, some false, some true] := by
  have hreachable : (({} : Context).pushCtes [shiftingCte]).Reachable :=
    .step .start (.pushCtes {} _)
  have hself : ¬ shiftingCte.query.body.leftmost.RefersTo shiftingCte.name := by
    rintro (⟨n, hn, -⟩ | ⟨q, hq, -⟩)
    · cases hn
    · cases hq
  have hrun : shiftingRun = (.ok (shiftingRun.1.toOption.getD default), shiftingRun.2) := by rfl
  obtain ⟨anchor, c₁, -, -, -, ha, -, -, -, hkeys, -⟩ :=
    self_reference_sees_columns hreachable rfl rfl rfl rfl hself hrun
  refine ⟨_, _, anchor, c₁, hrun, ha, by rfl, hkeys ▸ by rfl, by rfl, ?_⟩
  let first := ((Nested.within 2).anchor shiftingCte.query).outcome ⟨.builtinOnly {}, {}⟩
    ((({} : Context).pushCtes [shiftingCte]).computing "r")
  have hfirst : first = (.ok (first.1.toOption.getD []), first.2) := by rfl
  cases hfirst.symm.trans ha
  rfl

end Analysis

end ResultShape
