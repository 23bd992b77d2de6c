import ResultShape.Proofs.Analysis.SourceEntries
/-! Targets of changes: the source that a change takes for its target, and what the names of its
tables of changed rows find in the scope that the change registers. -/
namespace ResultShape

open Analysis

/-- The object of the catalog that an entry stands for. -/
def Entry.object? (e : Entry) : Option Reference :=
  e.objectKind.map fun kind => ⟨kind, e.catalog, e.schema, e.name⟩

/-- The object of the catalog that a source stands for in a context: a table or view, unless its
name is that of a local table or of a CTE, or a function that is not built in. -/
def Source.object? (env : Env) (c : Context) : Source → Option Reference
  | .named name _ =>
    if name.isLocal || (c.cteNamed? name).isSome then none
    else some ⟨(env.catalog.objectKind? name).getD .table, name.catalog,
      some (name.schema.getD env.config.defaultSchema), name.name⟩
  | .function name _ _ =>
    if name.schema.isNone && Text.same name.name "string_split" then none
    else some ⟨.function, none, some (name.schema.getD env.config.defaultSchema), name.name⟩
  | _ => none

private theorem exists_object?_addFunction (env : Env) (name : Name) (args : List Expr)
    (aliasName : Option String)
    (c : Context) :
    ∃ e, ((addFunction name aliasName).outcome env c).2.scopes.entries = c.scopes.entries ++ [e] ∧
      e.object? = (Source.function name args aliasName).object? env c := by
  simp only [addFunction]
  by_cases hbuiltIn : (name.schema.isNone && Text.same name.name "string_split") = true
  · rw [if_pos hbuiltIn]
    exact ⟨_, ScopeStack.entries_add .., (if_pos hbuiltIn).symm⟩
  · rw [if_neg hbuiltIn]
    exact ⟨_, ScopeStack.entries_add .., (if_neg hbuiltIn).symm⟩

theorem Source.Adds.object?_eq {env : Env} {c : Context} {s : Source} {e : Entry}
    (h : s.Adds env c e) :
    e.object? = s.object? env c := by
  cases h with
  | table aliasName hlocal hcte =>
    rw [Source.object?, hlocal, hcte]
    rfl
  | temporary aliasName hlocal =>
    rw [Source.object?, hlocal]
    rfl
  | cte aliasName hlocal hcte hc hm =>
    rw [Source.object?, hlocal, hcte]
    rfl
  | @function name _ args aliasName h =>
    obtain ⟨e', he, hobject⟩ := exists_object?_addFunction env name args aliasName c
    obtain rfl := List.singleton_injective (List.append_cancel_left (he.symm.trans (h c)))
    exact hobject
  | _ => rfl

namespace ScopeStack

/-- In the innermost scope a name finds an entry, whatever of it has been looked up. -/
def Finds (catalog : Catalog) (stack : ScopeStack) (name : String) (e : Entry) : Prop :=
  ∃ i e', stack.innermost.index? name = some i ∧ stack.entries[i]? = some e' ∧
    e'.load catalog = e.load catalog

variable {catalog : Catalog} {stack stack' : ScopeStack} {name : String} {e e' : Entry}

/-- An entry that is added under a name which is not taken is found by it. -/
theorem finds_add {names : List String} (h : stack.innermost.index? name = none)
    (hn : names.any (Text.same · name) = true) : Finds catalog (stack.add e names) name e := by
  refine ⟨stack.entries.length, e, ?_, ?_, rfl⟩
  · rw [innermost_add, Scope.index?_add, h, hn, if_pos rfl, length_innermost, Option.none_or]
  · rw [entries_add]
    exact List.getElem?_concat_length

namespace Finds

/-- A name that is taken stays with its entry. -/
theorem add (h : Finds catalog stack name e) (e' : Entry) (names : List String) :
    Finds catalog (stack.add e' names) name e := by
  obtain ⟨i, found, hi, he, hload⟩ := h
  refine ⟨i, found, ?_, ?_, hload⟩
  · rw [innermost_add, Scope.index?_add, hi, Option.some_or]
  · rw [entries_add, List.getElem?_append_left (List.getElem?_eq_some_iff.1 he).1, he]

theorem loaded (h : Finds catalog stack name e) (hl : Loaded catalog stack stack') :
    Finds catalog stack' name e := by
  obtain ⟨i, found, hi, he, hload⟩ := h
  obtain ⟨hlt, rfl⟩ := List.getElem?_eq_some_iff.1 he
  have hlt' : i < stack'.entries.length := hl.length_entries ▸ hlt
  refine ⟨i, stack'.entries[i], ?_, List.getElem?_eq_getElem hlt', ?_⟩
  · rw [Scope.index?, hl.keys]
    exact hi
  · exact (hl.entries.get hlt hlt').load_eq.trans hload

theorem registerAll {env : Env} {k : Nat} {ss : List Source} {c c' : Context}
    (h : Finds env.catalog c.scopes name e)
    (hs : (ss.forM fun s => discard (s.register (Nested.within k))).outcome env c = (.ok (), c')) :
    Finds env.catalog c'.scopes name e := by
  obtain ⟨i, found, hi, he, hload⟩ := h
  obtain ⟨found', he', hloaded⟩ := (Appends.registerAll ss hs).exists_loaded he
  refine ⟨i, found', ?_, he', hloaded.load_eq.trans hload⟩
  rw [FindsFirst.registerAll ss hs, hi, Option.some_or]

/-- Every column behind the name is read through the entry. -/
theorem lookup_eq (h : Finds catalog stack name e) (column : String) :
    (lookup catalog ⟨none, some name, column⟩ stack).1 =
      .found ((e.load catalog).project column) := by
  obtain ⟨i, found, hi, he, hload⟩ := h
  refine lookup_of_owner (k := i) ?_ ?_
  · rw [owner?_load, hi]
  · rw [entries_load, List.getElem?_map, he, Option.map_some, hload]

/-- The object behind a change is that of the entry which the table of its new rows has. -/
theorem targetReference_eq (h : Finds catalog stack "inserted" e) :
    Walk.targetReference stack = e.object? := by
  obtain ⟨i, found, hi, he, hload⟩ := h
  have hobject : found.object? = e.object? := by
    change (found.load catalog).object? = (e.load catalog).object?
    rw [hload]
  rw [← hobject]
  cases stack with
  | nil => cases he
  | cons s rest =>
    change s.index? "inserted" = some i at hi
    change s.entries[i]? = some found at he
    simp only [Walk.targetReference, pseudoTables, List.head?_cons, Option.bind_eq_bind,
      Option.bind_some, hi, he, Entry.object?]
    cases found.objectKind <;> rfl

end Finds

end ScopeStack

/-- The name by which a target may stand for a source in scope: without a catalog, even if the
target has one. A target with an alias of its own does not. -/
def Source.nameInScope? : Source → Option String
  | .named name none => some (name.schema.elim name.name (· ++ "." ++ name.name))
  | _ => none

/-- The sources that are in scope when a change adds its tables of changed rows, and the position of
its target among their leaves. A `MERGE` has only its target there. Another change names one of its
sources, the first that goes by the name of the target, or else it adds its target behind them. -/
inductive Walk.Targets (env : Env) (c : Context) (target : Source) (sources : List Source) :
    Bool → List Source → Nat → Prop where
  | merge : Targets env c target sources true [target] 0
  | source {name : String} {j : Nat} (hn : target.nameInScope? = some name)
    (hj : (sources.flatMap (·.leaves false)).findIdx? (·.goesBy env c name) = some j) :
    Targets env c target sources false sources j
  | behind (h : ∀ name, target.nameInScope? = some name →
      (sources.flatMap (·.leaves false)).findIdx? (·.goesBy env c name) = none) :
    Targets env c target sources false (sources ++ [target])
      (sources.flatMap (·.leaves false)).length

theorem Source.registered?_eq (s : Source) (stack : ScopeStack) :
    s.registered? stack = s.nameInScope?.bind stack.innermost.index? := by
  cases s with
  | named name aliasName =>
    cases aliasName with
    | none => cases stack <;> rfl
    | some a => rfl
  | _ => rfl

private theorem Source.leaves_ne_nil (s : Source) : s.leaves false ≠ [] := by
  induction s using Source.register.induct with
  | case6 kind left right on ihl _ =>
    rw [leaves_join]
    simp [ihl]
  | _ => exact List.cons_ne_nil _ _

namespace Walk.Targets

variable {env : Env} {k position : Nat} {c c₁ c₂ : Context} {target : Source}
  {sources inScope : List Source} {isMerge : Bool}

/-- There is a leaf at the position of the target. -/
theorem exists_leaf (h : Targets env c target sources isMerge inScope position) :
    ∃ l, (inScope.flatMap (·.leaves false))[position]? = some l := by
  obtain ⟨l, hl⟩ := List.exists_mem_of_ne_nil _ target.leaves_ne_nil
  have hpos : 0 < (target.leaves false).length := List.length_pos_of_mem hl
  cases h with
  | merge => exact ⟨_, List.getElem?_eq_getElem (by simpa using hpos)⟩
  | source _ hj => exact ⟨_, List.getElem?_eq_getElem (List.findIdx?_eq_some_iff_getElem.1 hj).1⟩
  | behind => exact ⟨_, List.getElem?_eq_getElem (by simpa using hpos)⟩

/-- In the scope of the sources the target is where one of them goes by its name, or it
is added behind all of them. -/
private theorem of_targetPosition
    (hs : (sources.forM fun s => discard (s.register (Nested.within k))).outcome env c.pushScope =
      (.ok (), c₁))
    (h : (target.targetPosition (Nested.within k)).outcome env c₁ = (.ok position, c₂)) :
    ∃ inScope, Targets env c target sources false inScope position ∧
      (inScope.forM fun s => discard (s.register (Nested.within k))).outcome env c.pushScope =
        (.ok (), c₂) := by
  obtain ⟨_, _, hget, h⟩ := outcome_bind_eq_ok.1 h
  cases hget
  have hfound : target.registered? c₁.scopes = target.nameInScope?.bind fun name =>
      (sources.flatMap (·.leaves false)).findIdx? (·.goesBy env c name) := by
    rw [Source.registered?_eq]
    exact Option.bind_congr fun name _ => FindsFirst.index?_registerAll hs name
  rw [hfound] at h
  split at h
  · rename_i j hj
    cases h
    obtain ⟨name, hn, hj⟩ := Option.bind_eq_some_iff.1 hj
    exact ⟨sources, .source hn hj, hs⟩
  · rename_i hnone
    obtain ⟨range, hr, rfl⟩ := outcome_map_eq_ok.1 h
    obtain ⟨-, hrange⟩ := Appends.register target hr
    have hlength : range.1 = (sources.flatMap (·.leaves false)).length := by
      rw [hrange, (Appends.registerAll sources hs).length_entries]
      exact Nat.zero_add _
    refine ⟨sources ++ [target], hlength ▸ .behind fun name hn => ?_, ?_⟩
    · rwa [hn] at hnone
    · rw [List.forM_eq_forM, List.forM_append]
      refine outcome_bind_eq_ok.2 ⟨(), c₁, hs, ?_⟩
      rw [List.forM_cons]
      exact outcome_bind_eq_ok.2 ⟨(), c₂, outcome_map_eq_ok.2 ⟨range, hr, rfl⟩, rfl⟩

end Walk.Targets

namespace Analysis

variable {env : Env} {k position : Nat} {c c₁ c' : Context} {target : Source}
  {sources inScope : List Source} {isMerge : Bool} {pseudo : String} {e : Entry}

/-- The entry of a table of changed rows. -/
private def changed (catalog : Catalog) (nullable : Bool) (e : Entry) (pseudo : String) : Entry :=
  if nullable then ((e.load catalog).aliased pseudo).markNullable
  else (e.load catalog).aliased pseudo

private theorem load_changed (catalog : Catalog) (nullable : Bool) (e : Entry) (pseudo : String) :
    (changed catalog nullable e pseudo).load catalog =
      { e with
        aliasName := some pseudo, forceNullable := nullable || e.forceNullable }.load catalog := by
  have hload := e.load_load catalog
  cases nullable with
  | false => exact congrArg (fun e : Entry => { e with aliasName := some pseudo }) hload
  | true =>
    exact congrArg
      (fun e : Entry => { e with aliasName := some pseudo, forceNullable := true }) hload

private theorem scopes_addPseudoTables {nullable : Bool} (he : c.scopes.entries[position]? = some e)
    (h : (addPseudoTables position nullable).outcome env c = (.ok (), c')) :
    c'.scopes = (c.scopes.add (changed env.catalog nullable e "inserted") ["inserted"]).add
      (changed env.catalog nullable e "deleted") ["deleted"] := by
  have hentry : c.scopes.entryAt? position = some e := by
    rw [← he]
    cases c.scopes <;> rfl
  obtain ⟨_, _, hget, h⟩ := outcome_bind_eq_ok.1 h
  cases hget
  rw [hentry] at h
  cases nullable <;>
  · cases h
    rfl

/-- Either name finds a copy of the entry, if it is not taken, -/
private theorem finds_changed {nullable : Bool} (he : c.scopes.entries[position]? = some e)
    (h : (addPseudoTables position nullable).outcome env c = (.ok (), c'))
    (hp : pseudo ∈ pseudoTables) (hfree : c.scopes.innermost.index? pseudo = none) :
    c'.scopes.Finds env.catalog pseudo
      { e with aliasName := some pseudo, forceNullable := nullable || e.forceNullable } := by
  rw [ScopeStack.Finds, ← load_changed, scopes_addPseudoTables he h]
  simp only [pseudoTables, List.mem_cons, List.not_mem_nil, or_false] at hp
  rcases hp with rfl | rfl
  · exact (ScopeStack.finds_add hfree (by decide)).add _ _
  · refine ScopeStack.finds_add ?_ (by decide)
    rw [ScopeStack.innermost_add, Scope.index?_add, hfree]
    rfl

/-- and what it found before, if it is. -/
private theorem finds_kept {nullable : Bool} {e' : Entry}
    (he : c.scopes.entries[position]? = some e)
    (h : (addPseudoTables position nullable).outcome env c = (.ok (), c'))
    (hfound : c.scopes.Finds env.catalog pseudo e') : c'.scopes.Finds env.catalog pseudo e' := by
  rw [scopes_addPseudoTables he h]
  exact (hfound.add _ _).add _ _

/-- When a change is registered in a scope of its own, a table of changed rows finds the entry of
the target, in which rows may be missing if an outer join leaves them out or if the change is a
`MERGE`. No source in scope by then may have the name of that table, unless the change is no `MERGE`
and that source is the target. -/
theorem exists_finds_of_registerChange (hc : c.Anchored)
    (h : (Walk.registerChange (Nested.within k) target sources isMerge).outcome env c.pushScope =
      (.ok (), c₁)) :
    ∃ inScope j l e, Walk.Targets env c target sources isMerge inScope j ∧
      (inScope.flatMap (·.leaves false))[j]? = some l ∧ l.source.Adds env c e ∧
      ∀ pseudo ∈ pseudoTables,
        (∀ i, (inScope.flatMap (·.leaves false)).findIdx? (·.goesBy env c pseudo) = some i →
          i = j ∧ isMerge = false) →
        ∃ aliasName, c₁.scopes.Finds env.catalog pseudo
          { e with aliasName, forceNullable := isMerge || l.mayMiss } := by
  -- The tables of changed rows come in over a scope in which nothing but these sources are
  -- registered.
  obtain ⟨inScope, position, c₂, c₃, htargets, hreg, hadd, hlater⟩ :
      ∃ inScope position c₂ c₃, Walk.Targets env c target sources isMerge inScope position ∧
        (inScope.forM fun s => discard (s.register (Nested.within k))).outcome env c.pushScope =
          (.ok (), c₂) ∧
        (addPseudoTables position isMerge).outcome env c₂ = (.ok (), c₃) ∧
        ∀ name e, c₃.scopes.Finds env.catalog name e → c₁.scopes.Finds env.catalog name e := by
    cases isMerge with
    | true =>
      obtain ⟨_, c₃, ht, hs⟩ := outcome_bind_eq_ok.1 h
      obtain ⟨position, c₂, hposition, hadd⟩ := outcome_bind_eq_ok.1 ht
      have hnone : (([] : List Source).forM fun s => discard (s.register (Nested.within k))).outcome
          env c.pushScope =
          (.ok (), c.pushScope) := rfl
      obtain ⟨inScope, htargets, hreg⟩ := Walk.Targets.of_targetPosition hnone hposition
      cases htargets with
      | source _ hj => cases hj
      | behind =>
        exact ⟨[target], _, c₂, c₃, .merge, hreg, hadd, fun name e hfound => hfound.registerAll hs⟩
    | false =>
      obtain ⟨_, c₂, hs, ht⟩ := outcome_bind_eq_ok.1 h
      obtain ⟨position, c₃, hposition, hadd⟩ := outcome_bind_eq_ok.1 ht
      obtain ⟨inScope, htargets, hreg⟩ := Walk.Targets.of_targetPosition hs hposition
      exact ⟨inScope, position, c₃, c₁, htargets, hreg, hadd, fun _ _ hfound => hfound⟩
  obtain ⟨l, hl⟩ := htargets.exists_leaf
  obtain ⟨found, hfound, hshown⟩ := Appends.exists_shownBy hreg hl
  obtain ⟨found', hfound', hcomes⟩ :=
    (Source.Adds.holdsOfLeaves env k).registerAll inScope hreg position l hl
  rw [show c.pushScope.scopes.entries.length + position = position from Nat.zero_add position,
    hfound] at hfound'
  cases hfound'
  obtain ⟨e, hadds, hload⟩ := hcomes hc
  rw [hshown.forceNullable] at hload
  refine ⟨inScope, position, l, e, htargets, hl, hadds.of_pushScope, fun pseudo hp hfirst => ?_⟩
  have hindex := FindsFirst.index?_registerAll hreg pseudo
  cases hi : (inScope.flatMap (·.leaves false)).findIdx? (·.goesBy env c pseudo) with
  | none =>
    rw [hi] at hindex
    refine ⟨some pseudo, hlater _ _ ?_⟩
    have hcopy := finds_changed hfound hadd hp hindex
    rw [ScopeStack.Finds, hshown.forceNullable] at hcopy
    have hsame :=
      congrArg
        (fun e : Entry =>
          { e with aliasName := some pseudo, forceNullable := isMerge || l.mayMiss }) hload
    obtain ⟨i, e', hi', he', hload'⟩ := hcopy
    exact ⟨i, e', hi', he', hload'.trans hsame⟩
  | some i =>
    obtain ⟨rfl, rfl⟩ := hfirst i hi
    exact ⟨e.aliasName,
      hlater _ _ (finds_kept hfound hadd ⟨i, found, hindex.trans hi, hfound, hload⟩)⟩

end Analysis

end ResultShape
