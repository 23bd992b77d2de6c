import ResultShape.Proofs.Analysis.Qualifier
import ResultShape.Proofs.Scope.Laziness
/-! Stars: `*` stands for what the stars of the single sources stand for, as far as their columns
are known. A source with unknown columns leaves no trace in it as long as another one is known. -/
namespace ResultShape

open Analysis

namespace ScopeStack

variable {catalog : Catalog} {stack stack' : ScopeStack}

/-- A star stands for the same columns whatever has been looked up. -/
theorem Loaded.expand_eq (h : Loaded catalog stack stack') (qualifier : Option String) :
    (expand catalog qualifier stack').1 = (expand catalog qualifier stack).1 := by
  have hload (stack : ScopeStack) : (expand catalog qualifier (stack.load catalog)).1 =
      (expand catalog qualifier stack).1 := by rw [expand_load]
  rw [← hload stack', h.load_eq, hload]

/-- The star of a name stands for the columns of the entry that it finds. -/
theorem expand_some {name : String} {i : Nat} (h : stack.innermost.index? name = some i) :
    (expand catalog (some name) stack).1 =
      (stack.entries[i]?.map (.load catalog)).bind Entry.projectAll? := by
  cases stack with
  | nil => rfl
  | cons s rest =>
    change s.index? name = some i at h
    simp only [expand, h, Scope.loadAt, List.getElem?_modify_eq]
    rfl

/-- The bare star stands for the columns of all entries that are known. -/
theorem expand_none (h : stack.entries.filterMap (fun e => (e.load catalog).projectAll?) ≠ []) :
    (expand catalog none stack).1 =
      some (stack.entries.filterMap fun e => (e.load catalog).projectAll?).flatten := by
  cases stack with
  | nil => exact absurd rfl h
  | cons s rest =>
    have hentries : (s.load catalog).entries.filterMap Entry.projectAll? =
        s.entries.filterMap fun e => (e.load catalog).projectAll? := List.filterMap_map
    change s.entries.filterMap (fun e => (e.load catalog).projectAll?) ≠ [] at h
    change expandAll (s.load catalog) = some (s.entries.filterMap _).flatten
    rw [expandAll, hentries]
    split
    · rename_i hnil
      exact absurd hnil h
    · rfl

end ScopeStack

/-- The aliases of those leaves whose columns are known, by the entry of each, in order. -/
def knownAliases (catalog : Catalog) (ls : List Leaf) (es : List Entry) : List String :=
  (ls.zip es).filterMap fun (l, e) =>
    if (e.load catalog).columnMap?.isSome then l.source.alias? else none

/-- No alias of a leaf is a name that one of the leaves has of its own. -/
def AliasesApart (env : Env) (c : Context) (ls : List Leaf) : Prop :=
  ∀ l ∈ ls, ∀ a ∈ l.source.alias?, ∀ l' ∈ ls, l'.hasOwnName env c a = false

/-- Every leaf has an alias, whose star stands for the columns of the leaf's entry. -/
def StarsByAlias (catalog : Catalog) (ls : List Leaf) (stack : ScopeStack) : Prop :=
  ∀ p ∈ ls.zip stack.entries, ∃ a, p.1.source.alias? = some a ∧
    (ScopeStack.expand catalog (some a) stack).1 = (p.2.load catalog).projectAll?

namespace StarsByAlias

variable {env : Env} {k : Nat} {c c₁ : Context} {ls : List Leaf} {stack : ScopeStack}
  {catalog : Catalog}

/-- In the scope of a `FROM` clause whose aliases are distinct, and no names of other
kinds, aliases find their leaves. -/
theorem of_registerAll {ss : List Source}
    (hs : (ss.forM fun s => discard (s.register (Nested.within k))).outcome env c.pushScope =
      (.ok (), c₁))
    (hd : DistinctAliases (ss.flatMap (·.leaves false)))
    (ha : AliasesApart env c (ss.flatMap (·.leaves false))) :
    StarsByAlias env.catalog (ss.flatMap (·.leaves false)) c₁.scopes := by
  rintro ⟨l, e⟩ hp
  obtain ⟨j, hj⟩ := List.mem_iff_getElem?.1 hp
  obtain ⟨hl, he⟩ := List.getElem?_zip_eq_some.1 hj
  obtain ⟨a, hal⟩ := Option.isSome_iff_exists.1 (hd.explicit l (List.mem_of_getElem? hl))
  have hfirst : (ss.flatMap (·.leaves false)).findIdx? (·.goesBy env c a) = some j :=
    (hd.findIdx?_eq_iff env c hl hal).2 fun l' hl' =>
      ha l (List.mem_of_getElem? hl) a hal l' (List.mem_of_mem_take hl')
  refine ⟨a, hal, ?_⟩
  rw [ScopeStack.expand_some ((FindsFirst.index?_registerAll hs a).trans hfirst), he]
  rfl

/-- What the known aliases stand for, one after the other, is what the known entries show. -/
theorem map_knownAliases (h : StarsByAlias catalog ls stack)
    (hlen : ls.length = stack.entries.length) :
    (knownAliases catalog ls stack.entries).map
      (fun a => (ScopeStack.expand catalog (some a) stack).1) =
      (stack.entries.filterMap fun e => (e.load catalog).projectAll?).map some := by
  have hknown (e : Entry) : e.projectAll?.isSome = e.columnMap?.isSome := Option.isSome_map
  have hall (ps : List (Leaf × Entry)) (hps : ∀ p ∈ ps, ∃ a, p.1.source.alias? = some a ∧
      (ScopeStack.expand catalog (some a) stack).1 = (p.2.load catalog).projectAll?) :
      (ps.filterMap fun (l, e) =>
        if (e.load catalog).columnMap?.isSome then l.source.alias? else none).map
          (fun a => (ScopeStack.expand catalog (some a) stack).1) =
        (ps.filterMap fun p => (p.2.load catalog).projectAll?).map some := by
    induction ps with
    | nil => rfl
    | cons p ps ih =>
      rw [List.forall_mem_cons] at hps
      obtain ⟨⟨a, ha, hexpand⟩, hps⟩ := hps
      simp only [List.filterMap_cons]
      cases hcolumns : (p.2.load catalog).projectAll? with
      | none =>
        rw [← hknown, hcolumns, Option.isSome_none, if_neg Bool.false_ne_true]
        exact ih hps
      | some columns =>
        rw [← hknown, hcolumns, Option.isSome_some, if_pos rfl, ha]
        simp only [List.map_cons, hexpand, hcolumns, ih hps]
  have hzip : stack.entries.filterMap (fun e => (e.load catalog).projectAll?) =
      (ls.zip stack.entries).filterMap fun p => (p.2.load catalog).projectAll? := by
    conv_lhs =>
      rw [← List.map_snd_zip (show stack.entries.length ≤ ls.length by omega), List.filterMap_map]
    rfl
  rw [knownAliases, hall _ h, hzip]

end StarsByAlias

/-- The star of each alias. -/
def Item.starsOf (aliases : List String) : List Item := aliases.map fun a => .star (some a)

namespace Analysis

variable {env : Env} {k : Nat} {c c₁ : Context} {n : Nested} {stack : ScopeStack}

private theorem outcome_expandStar (qualifier : Option String) :
    (star qualifier).outcome env c =
      (.ok
        ((ScopeStack.expand env.catalog qualifier c.scopes).1.getD [{ aliasTable := qualifier }]),
        { c with scopes := (ScopeStack.expand env.catalog qualifier c.scopes).2 }) := rfl

/-- The stars of some aliases come to the columns of each, however many have been looked up. -/
private theorem exists_outcome_starsOf {aliases : List String} {columns : List (List ResultColumn)}
    (hl : ScopeStack.Loaded env.catalog stack c.scopes)
    (h : aliases.map (fun a => (ScopeStack.expand env.catalog (some a) stack).1) =
      columns.map some) :
    ∃ c', ((Item.starsOf aliases).mapM (Item.columns n)).outcome env c = (.ok columns, c') := by
  induction aliases generalizing c columns with
  | nil =>
    rw [List.map_nil, eq_comm, List.map_eq_nil_iff] at h
    exact ⟨c, by rw [h]; rfl⟩
  | cons a aliases ih =>
    cases columns with
    | nil => cases h
    | cons first rest =>
      obtain ⟨ha, hrest⟩ := List.cons_eq_cons.1 h
      let c₁ : Context := { c with scopes := (ScopeStack.expand env.catalog (some a) c.scopes).2 }
      have hstar : (Item.columns n (.star (some a))).outcome env c = (.ok first, c₁) := by
        rw [Item.columns, outcome_expandStar, hl.expand_eq (some a)]
        exact congrArg (fun o : Option _ => (Except.ok (o.getD _), c₁)) ha
      obtain ⟨c', htail⟩ :=
        ih (c := c₁) (hl.trans (ScopeStack.loaded_expand (some a) c.scopes)) hrest
      refine ⟨c', ?_⟩
      rw [Item.starsOf, List.map_cons, List.mapM_cons, outcome_bind_of_ok hstar]
      exact (outcome_bind_of_ok htail).trans rfl

/-- Over entries of which at least one is known, `*` projects what the
stars of the known ones do. -/
private theorem projectAll_star_eq {ls : List Leaf} (h : StarsByAlias env.catalog ls c.scopes)
    (hlen : ls.length = c.scopes.entries.length)
    (hk : knownAliases env.catalog ls c.scopes.entries ≠ []) :
    ((Item.projectAll n [.star none]).outcome env c).1 =
      ((Item.projectAll n (Item.starsOf (knownAliases env.catalog ls c.scopes.entries))).outcome
        env c).1 := by
  have hmap := h.map_knownAliases hlen
  have hcolumns : c.scopes.entries.filterMap (fun e => (e.load env.catalog).projectAll?) ≠ [] := by
    intro hnil
    rw [hnil] at hmap
    exact hk (List.map_eq_nil_iff.1 hmap)
  obtain ⟨c', hstars⟩ := exists_outcome_starsOf (n := n) (.refl _) hmap
  have hstar : ([Item.star none].mapM (Item.columns n)).outcome env c =
      (.ok [(c.scopes.entries.filterMap fun e => (e.load env.catalog).projectAll?).flatten],
        { c with scopes := (ScopeStack.expand env.catalog none c.scopes).2 }) := by
    rw [List.mapM_cons, Item.columns, outcome_bind_of_ok (outcome_expandStar none),
      ScopeStack.expand_none hcolumns]
    rfl
  have hany :
      (Item.starsOf (knownAliases env.catalog ls c.scopes.entries)).any Item.isStar = true := by
    obtain ⟨a, as, has⟩ := List.exists_cons_of_ne_nil hk
    rw [has]
    rfl
  rw [Item.projectAll, Item.projectAll, outcome_bind_of_ok hstar, outcome_bind_of_ok hstars, hany]
  change Except.ok (Projection.mk [_].flatten true) = .ok ⟨_, true⟩
  rw [List.flatten_singleton]

end Analysis

/-- Where the sources of a query's `SELECT` block are registered: under its `WITH`
clause, in a scope of the block. -/
def Context.inBlock (c : Context) (ctes : List Cte) : Context :=
  ({ c with depth := c.depth + 1 }.pushCtes ctes).pushScope

/-- The aliases of a block's `FROM` clause whose columns are known once the
sources are registered. -/
def Select.knownAliases (env : Env) (c : Context) (block : Select) : List String :=
  let nested := (c.depthWithin env.config.maxNestingDepth).nested
  let c₁ := ((block.sources.forM fun s => discard (s.register nested)).outcome env c).2
  ResultShape.knownAliases env.catalog (block.sources.flatMap (·.leaves false)) c₁.scopes.entries

namespace Query

variable {env : Env} {c : Context} {block : Select} {ctes : List Cte}

/-- What a query comes to, by what its body projects under its `WITH` clause. -/
private theorem outcome_resolveWith (n : Nested) (q : Query) :
    ((q.resolveWith n).outcome env c).1 =
      ((q.body.project n).outcome env (c.pushCtes q.ctes)).1.map fun p =>
        (q.forJson? env.config).elim p.resultSet (p.resultSet.asDocument q) := by
  have hctes : (withCtes q.ctes (q.body.project n)).outcome env c =
      (((q.body.project n).outcome env (c.pushCtes q.ctes)).1,
        ((q.body.project n).outcome env (c.pushCtes q.ctes)).2.popCtes) := rfl
  rw [resolveWith, outcome_bind, hctes]
  cases ((q.body.project n).outcome env (c.pushCtes q.ctes)).1 <;> rfl

private theorem project_star_eq (hd : DistinctAliases (block.sources.flatMap (·.leaves false)))
    (ha : AliasesApart env (c.inBlock ctes) (block.sources.flatMap (·.leaves false)))
    (hk : block.knownAliases env (c.inBlock ctes) ≠ []) :
    let n := ((c.inBlock ctes).depthWithin env.config.maxNestingDepth).nested
    let project (items : List Item) :=
      ((Select.project n { block with items }).outcome env (c.inBlock ctes)).1
    project [.star none] = project (Item.starsOf (block.knownAliases env (c.inBlock ctes))) := by
  intro n project
  simp only [project, Select.project]
  rw [outcome_bind, outcome_bind]
  cases hs : (block.sources.forM fun s => discard (s.register n)).outcome env (c.inBlock ctes) with
  | mk result c₁ =>
    cases result with
    | error e => rfl
    | ok _ =>
      have happends := Appends.registerAll block.sources hs
      have hknown : block.knownAliases env (c.inBlock ctes) =
          knownAliases env.catalog (block.sources.flatMap (·.leaves false)) c₁.scopes.entries := by
        change knownAliases env.catalog (block.sources.flatMap (·.leaves false))
          ((block.sources.forM fun s => discard (s.register n)).outcome env
            (c.inBlock ctes)).2.scopes.entries = _
        rw [hs]
      rw [hknown] at hk ⊢
      refine projectAll_star_eq (.of_registerAll hs hd ha) ?_ hk
      rw [happends.length_entries]
      exact (Nat.zero_add _).symm

/-- Stars are no aggregates. -/
private theorem singleRow_starsOf {aliases : List String} (h : aliases ≠ []) :
    Select.singleRow { block with items := Item.starsOf aliases } =
      Select.singleRow { block with items := [.star none] } := by
  obtain ⟨a, as, rfl⟩ := List.exists_cons_of_ne_nil h
  rfl

/-- `SELECT *` comes to the same result set, or the same error, as `SELECT` over the stars of
those sources whose columns are known, in the order of the `FROM` clause, if there is such a
source and the aliases are distinct. -/
theorem star_eq_known_stars (orderBy : List OrderKey) (forClause : Option ForClause)
    (sourceText : Option String) (hd : DistinctAliases (block.sources.flatMap (·.leaves false)))
    (ha : AliasesApart env (c.inBlock ctes) (block.sources.flatMap (·.leaves false)))
    (hk : block.knownAliases env (c.inBlock ctes) ≠ []) :
    let query (items : List Item) : Query :=
      ⟨.select { block with items }, ctes, orderBy, forClause, sourceText⟩
    let run (q : Query) :=
      (((c.depthWithin env.config.maxNestingDepth).nested.query q).outcome env c).1
    run (query [.star none]) =
      run (query (Item.starsOf (block.knownAliases env (c.inBlock ctes)))) := by
  intro query run
  let stars := Item.starsOf (block.knownAliases env (c.inBlock ctes))
  have hproject := project_star_eq hd ha hk
  have hnested : ((c.inBlock ctes).depthWithin env.config.maxNestingDepth).nested =
      .within (env.config.maxNestingDepth - (c.depth + 1)) := rfl
  rw [hnested] at hproject
  dsimp only at hproject
  change
    (((Nested.within (env.config.maxNestingDepth - c.depth)).query (query _)).outcome env c).1 =
    (((Nested.within (env.config.maxNestingDepth - c.depth)).query (query _)).outcome env c).1
  by_cases hdepth : c.depth < env.config.maxNestingDepth
  · obtain ⟨m, hm⟩ : ∃ m, env.config.maxNestingDepth - c.depth = m + 1 :=
      ⟨_, (Nat.succ_pred_eq_of_pos (by omega)).symm⟩
    have hm' : env.config.maxNestingDepth - (c.depth + 1) = m := by omega
    have hrun (items : List Item) :
        (((Nested.within (m + 1)).query (query items)).outcome env c).1 =
        (((Select.project (Nested.within m) { block with items }).outcome env
          (c.inBlock ctes)).1).map fun p =>
          ((query items).forJson? env.config).elim p.resultSet
            (p.resultSet.asDocument (query items)) := by
      rw [Nested.within, outcome_opening, if_pos hdepth, outcome_between, outcome_resolveWith]
      rfl
    have hdocument (set : ResultSet) :
        set.asDocument (query [.star none]) = set.asDocument (query stars) := by
      funext f
      have hrow : (query stars).singleRow = (query [.star none]).singleRow := singleRow_starsOf hk
      rw [ResultSet.asDocument, ResultSet.asDocument, hrow]
    rw [hm, hrun, hrun, ← hm', hproject]
    simp only [hdocument]
    rfl
  · rw [Nat.sub_eq_zero_of_le (by omega)]
    rfl

/-- `FROM (SELECT 1 AS x) AS d, t AS u, (SELECT 's' AS y) AS v`, where nothing is known of `t`. -/
private def partlyKnown : Select :=
  let one (value : Literal) (name : String) : Query :=
    ⟨.select ⟨false, none, [.expr (.literal value) (some name)], none, [], none, [], none⟩, [],
      [], none, none⟩
  ⟨false, none, [], none, [.derived (one (.int 1) "x") "d" [], .named (.bare "t") (some "u"),
    .derived (one (.string "s" false) "y") "v" []], none, [], none⟩

private def partlyKnownRun (items : List Item) :
    Except AnalysisError (List (String × Option String)) :=
  let env : Env := ⟨.builtinOnly {}, {}⟩
  let q : Query := ⟨.select { partlyKnown with items }, [], [], none, none⟩
  (((({} : Context).depthWithin env.config.maxNestingDepth).nested.query q).outcome env {}).1.map
    (·.columns.map fun c => (c.name, c.aliasTable))

private theorem distinctAliases_partlyKnown :
    DistinctAliases (partlyKnown.sources.flatMap (·.leaves false)) := ⟨by decide, by decide⟩

private theorem aliasesApart_partlyKnown :
    AliasesApart ⟨.builtinOnly {}, {}⟩ (({} : Context).inBlock [])
      (partlyKnown.sources.flatMap (·.leaves false)) := by
  unfold AliasesApart
  decide

/-- Here `*` comes to the same as `d.*, v.*`. -/
theorem star_eq_known_stars_partlyKnown :
    let env : Env := ⟨.builtinOnly {}, {}⟩
    let query (items : List Item) : Query :=
      ⟨.select { partlyKnown with items }, [], [], none, none⟩
    let run (q : Query) :=
      (((({} : Context).depthWithin env.config.maxNestingDepth).nested.query q).outcome env {}).1
    DistinctAliases (partlyKnown.sources.flatMap (·.leaves false)) ∧
      AliasesApart env (({} : Context).inBlock []) (partlyKnown.sources.flatMap (·.leaves false)) ∧
      partlyKnown.knownAliases env (({} : Context).inBlock []) = ["d", "v"] ∧
      run (query [.star none]) = run (query (Item.starsOf ["d", "v"])) := by
  have hknown :
      partlyKnown.knownAliases ⟨.builtinOnly {}, {}⟩ (({} : Context).inBlock []) = ["d", "v"] := rfl
  have hstar :=
    star_eq_known_stars [] none none distinctAliases_partlyKnown aliasesApart_partlyKnown
    (by rw [hknown]; exact List.cons_ne_nil _ _)
  rw [hknown] at hstar
  exact ⟨distinctAliases_partlyKnown, aliasesApart_partlyKnown, hknown, hstar⟩

/-- And `u` leaves no column in it, unlike in `d.*, u.*, v.*`. -/
theorem star_drops_unknown_partlyKnown :
    let ls := partlyKnown.sources.flatMap (·.leaves false)
    DistinctAliases ls ∧ AliasesApart ⟨.builtinOnly {}, {}⟩ (({} : Context).inBlock []) ls ∧
      ls.map (·.source.alias?) = [some "d", some "u", some "v"] ∧
      partlyKnownRun [.star none] = .ok [("x", some "d"), ("y", some "v")] ∧
      partlyKnownRun (Item.starsOf ["d", "u", "v"]) =
        .ok [("x", some "d"), ("u", some "u"), ("y", some "v")] :=
  ⟨distinctAliases_partlyKnown, aliasesApart_partlyKnown, rfl, rfl, rfl⟩

end Query

end ResultShape
