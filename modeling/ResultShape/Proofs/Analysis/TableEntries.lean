import ResultShape.Proofs.Analysis.LeafEntries
import ResultShape.Proofs.Scope.Columns
/-! Entries of tables: the entry of a source that names a table or view carries the parts of that
name, and so does the source of every column that is read from it. -/
namespace ResultShape

/-- The table or view that a name stands for, as the source of a column. -/
def Name.tableSource (env : Env) (n : Name) : ColumnSource where
  schema := some (n.schema.getD env.config.defaultSchema)
  table := some n.name
  objectKind := some ((env.catalog.objectKind? n).getD .table)

/-- The entry of a table or view, whose columns are looked up now or later. -/
structure Entry.OfTable (env : Env) (n : Name) (e : Entry) : Prop where
  owner : e.owner = n.tableSource env
  columns : e.columns.load env.catalog e.owner =
    (EntryColumns.pending { n with schema := some (n.schema.getD env.config.defaultSchema) }).load
      env.catalog e.owner

namespace Entry.OfTable

variable {env : Env} {n : Name} {e e' : Entry} {key : String} {c : ResultColumn}

theorem table (aliasName : Option String) :
    OfTable env n
      (.table n (n.schema.getD env.config.defaultSchema) aliasName
        ((env.catalog.objectKind? n).getD .table)) :=
  ⟨rfl, rfl⟩

theorem loaded (h : e.OfTable env n) (he : Entry.Loaded env.catalog e e') : e'.OfTable env n := by
  rcases he with rfl | rfl
  · exact h
  · exact ⟨h.owner, (EntryColumns.load_load _ _ _).trans h.columns⟩

theorem markIf (h : e.OfTable env n) (mayMiss : Bool) : (e.markIf mayMiss).OfTable env n := by
  cases mayMiss with
  | false => exact h
  | true => exact ⟨h.owner, h.columns⟩

private theorem source_of_get?_ofRecords {catalog : Catalog} {owner : ColumnSource}
    {records : List ColumnRecord}
    {info : ColumnInfo} (h : (ColumnMap.ofRecords catalog owner records).get? key = some info) :
    ∃ name, info.source = some { owner with column := some name } := by
  obtain ⟨r, -, rfl⟩ : ∃ r ∈ records, ColumnInfo.ofRecord catalog owner r = info :=
    List.mem_map.1 (ColumnMap.mem_of_mem_ofInfos (Keyed.mem_of_get? h))
  exact ⟨r.name, rfl⟩

/-- A column that is read from the entry has the table or view as its source, whether
the catalog lists it or not. -/
theorem source_of_reads (h : e.OfTable env n) (hr : (e.load env.catalog).Reads key c) :
    ∃ name, c.source = some { n.tableSource env with column := some name } := by
  rcases hr.source_eq with ⟨info, hi, hc⟩ | ⟨name, hc⟩
  · obtain ⟨m, hm, hget⟩ := Option.bind_eq_some_iff.1 hi
    have hcolumns : (e.load env.catalog).columns = _ := h.columns
    rw [h.owner, EntryColumns.load] at hcolumns
    rw [columnMap?, hcolumns] at hm
    cases hrecords : env.catalog.tableColumns?
      { n with schema := some (n.schema.getD env.config.defaultSchema) } with
    | none =>
      rw [hrecords] at hm
      cases hm
    | some records =>
      rw [hrecords] at hm
      cases hm
      exact hc ▸ source_of_get?_ofRecords hget
  · exact ⟨name, h.owner ▸ hc⟩

end Entry.OfTable

namespace Analysis

/-- The leaves that name tables or views have the entries of these, behind
the entries that were there. -/
def ShowsTables (env : Env) (ls : List Leaf) (c c' : Context) : Prop :=
  ∀ i n aliasName, (ls.map (·.source))[i]? = some (.named n aliasName) → n.isLocal = false →
    c.cteNamed? n = none →
    ∃ e, c'.scopes.entries[c.scopes.entries.length + i]? = some e ∧ e.OfTable env n

namespace ShowsTables

variable {env : Env} {k : Nat} {ls : List Leaf} {c c₁ c' : Context}

/-- The entry of a leaf, if that names a table or view in a context, is
that of the table or view. -/
private def Named (env : Env) (c : Context) (s : Source) (e : Entry) : Prop :=
  ∀ n aliasName, s = .named n aliasName → n.isLocal = false → c.cteNamed? n = none → e.OfTable env n

private theorem named_addNamed {name : Name} {aliasName : Option String}
    (h : (addNamed (Nested.within k) name aliasName).outcome env c = (.ok (), c'))
    (hlocal : name.isLocal = false) (hcte : c.cteNamed? name = none) :
    ∃ e, c'.scopes.entries[c.scopes.entries.length]? = some e ∧ e.OfTable env name := by
  unfold addNamed at h
  rw [hlocal, if_neg Bool.false_ne_true] at h
  obtain ⟨c₀, c₁, hget, h⟩ := outcome_bind_eq_ok.1 h
  cases hget
  rw [hcte] at h
  cases h
  refine ⟨_, ?_, .table aliasName⟩
  change (c.scopes.add _ _).entries[_]? = _
  rw [ScopeStack.entries_add]
  simp

private theorem exists_entry {s : Source} {range : Nat × Nat}
    (hs : ∀ kind left right on, s ≠ .join kind left right on)
    (h : (s.register (Nested.within k)).outcome env c = (.ok range, c')) :
    ∃ e, c'.scopes.entries[c.scopes.entries.length]? = some e := by
  have hlength := (Appends.register s h).1.length_entries
  rw [Source.leaves_of_not_join hs] at hlength
  exact ⟨_, List.getElem?_eq_getElem (by rw [hlength]; exact Nat.lt_succ_self _)⟩

private theorem holdsOfLeaves (env : Env) (k : Nat) : HoldsOfLeaves env k (Named env) where
  leaf := by
    intro c c' s range hs h
    by_cases hn : ∃ n aliasName, s = .named n aliasName ∧ n.isLocal = false ∧ c.cteNamed? n = none
    · obtain ⟨n, aliasName, rfl, hlocal, hcte⟩ := hn
      obtain ⟨e, he, htable⟩ := named_addNamed (Appends.of_added h).1 hlocal hcte
      refine ⟨e, he, fun n' _ hs _ _ => ?_⟩
      cases hs
      exact htable
    · obtain ⟨e, he⟩ := exists_entry hs h
      exact ⟨e, he, fun n aliasName hs hlocal hcte => absurd ⟨n, aliasName, hs, hlocal, hcte⟩ hn⟩
  loaded h he := fun n a hs hlocal hcte => (h n a hs hlocal hcte).loaded he
  markIf h mayMiss := fun n a hs hlocal hcte => (h n a hs hlocal hcte).markIf mayMiss
  earlier := by
    intro c c₁ s s' e range hr h n a hs hlocal hcte
    have hframes := (Appends.register s' hr).1.showsAs.cteFrames
    exact h n a hs hlocal (by simpa only [Context.cteNamed?, Context.findCte?, hframes] using hcte)

/-- An entry stays that of its table while more entries are appended. -/
theorem kept (ha : Appends env ls c c') {i : Nat} {e : Entry} {n : Name}
    (hi : c.scopes.entries[i]? = some e)
    (he : e.OfTable env n) : ∃ e', c'.scopes.entries[i]? = some e' ∧ e'.OfTable env n := by
  obtain ⟨e', he', hloaded⟩ := ha.exists_loaded hi
  exact ⟨e', he', he.loaded hloaded⟩

theorem registerAll (ss : List Source)
    (h : (ss.forM fun s => discard (s.register (Nested.within k))).outcome env c = (.ok (), c')) :
    ShowsTables env (ss.flatMap (·.leaves false)) c c' := by
  intro i n aliasName hl hlocal hcte
  rw [List.getElem?_map, Option.map_eq_some_iff] at hl
  obtain ⟨l, hl, hsource⟩ := hl
  obtain ⟨e, he, htable⟩ := (holdsOfLeaves env k).registerAll ss h i l hl
  exact ⟨e, he, htable n aliasName hsource hlocal hcte⟩

/-- In the scope of a block the entry of a leaf that names a table or view
is that of the table or view. -/
theorem exists_ofTable {j : Nat} {ss : List Source} {n : Name} {aliasName : Option String}
    (hs : (ss.forM fun s => discard (s.register (Nested.within k))).outcome env c.pushScope =
      (.ok (), c₁))
    (hl : ((ss.flatMap (·.leaves false)).map (·.source))[j]? = some (.named n aliasName))
    (hlocal : n.isLocal = false)
    (hcte : c.cteNamed? n = none) : ∃ e, c₁.scopes.entries[j]? = some e ∧ e.OfTable env n := by
  have h := registerAll ss hs j n aliasName hl hlocal hcte
  rwa [show c.pushScope.scopes.entries.length + j = j from Nat.zero_add j] at h

/-- What the target of a change adds comes behind the entries that were there. -/
theorem kept_registerTarget {i : Nat} {target : Source} {nullable : Bool} {e : Entry} {n : Name}
    (h : (target.registerTarget (Nested.within k) nullable).outcome env c = (.ok (), c'))
    (hi : c.scopes.entries[i]? = some e) (he : e.OfTable env n) :
    ∃ e', c'.scopes.entries[i]? = some e' ∧ e'.OfTable env n := by
  obtain ⟨position, c₁, hposition, h⟩ := outcome_bind_eq_ok.1 h
  obtain ⟨e₁, hi₁, he₁⟩ : ∃ e₁, c₁.scopes.entries[i]? = some e₁ ∧ e₁.OfTable env n := by
    obtain ⟨_, _, hget, hposition⟩ := outcome_bind_eq_ok.1 hposition
    cases hget
    split at hposition
    · cases hposition
      exact ⟨e, hi, he⟩
    · obtain ⟨range, hr, -⟩ := outcome_map_eq_ok.1 hposition
      exact kept (Appends.register target hr).1 hi he
  obtain ⟨_, _, hget, h⟩ := outcome_bind_eq_ok.1 h
  cases hget
  split at h
  · cases h
    exact ⟨e₁, hi₁, he₁⟩
  · cases h
    refine ⟨e₁, ?_, he₁⟩
    change ((c₁.scopes.add _ _).add _ _).entries[i]? = some e₁
    rw [ScopeStack.entries_add, ScopeStack.entries_add, List.append_assoc,
      List.getElem?_append_left (List.getElem?_eq_some_iff.1 hi₁).1, hi₁]

end ShowsTables

end Analysis

end ResultShape
