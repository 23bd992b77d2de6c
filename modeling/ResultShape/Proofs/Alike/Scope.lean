import ResultShape.Proofs.Alike.Column
/-! Alike scopes: an answer that scopes give is alike in two analyses, and so
are the scopes that it leaves. -/
namespace ResultShape.Likeness

variable {L : Likeness} {env : Env}

section Catalog

variable {n n' : Name}

private theorem keyOf_eq {schema schema' name name' : String}
    (hs : Text.fold schema = Text.fold schema')
    (hn : Text.fold name = Text.fold name') :
    Name.keyOf schema name = Name.keyOf schema' name' := by
  simp only [Name.keyOf, Text.fold_append, hs, hn]

private theorem fullKeyOf_eq {catalog catalog' schema schema' name name' : String}
    (hc : Text.fold catalog = Text.fold catalog') (hs : Text.fold schema = Text.fold schema')
    (hn : Text.fold name = Text.fold name') :
    Name.fullKeyOf catalog schema name = Name.fullKeyOf catalog' schema' name' := by
  simp only [Name.fullKeyOf, Text.fold_append, hc, hs, hn]

variable (h : L.Lawful env)

include h

private theorem table?_eq (s : Snapshot) {schema schema' name name' : String}
    {catalog catalog' : Option String}
    (hs : L.same schema schema') (hn : L.same name name')
    (hc : Option.Rel L.same catalog catalog') :
    s.table? schema name catalog = s.table? schema' name' catalog' := by
  unfold Snapshot.table?
  rw [keyOf_eq (h.fold_eq hs) (h.fold_eq hn)]
  cases hc with
  | none => rfl
  | some hc =>
    rw [Option.bind_some, Option.bind_some,
      fullKeyOf_eq (h.fold_eq hc) (h.fold_eq hs) (h.fold_eq hn)]

private theorem schemaOf_alike (catalog : Catalog) (hn : n.Alike L.same n') :
    L.same (catalog.schemaOf n) (catalog.schemaOf n') := rel_getD hn.schema (h.refl _)

theorem tableColumns?_eq (catalog : Catalog) (hn : n.Alike L.same n') :
    catalog.tableColumns? n = catalog.tableColumns? n' := by
  rw [Catalog.tableColumns?, Snapshot.tableColumns?, Catalog.tableColumns?, Snapshot.tableColumns?,
    table?_eq h _ (schemaOf_alike h catalog hn) hn.name hn.catalog]

theorem objectKind?_eq (catalog : Catalog) (hn : n.Alike L.same n') :
    catalog.objectKind? n = catalog.objectKind? n' := by
  rw [Catalog.objectKind?, Snapshot.objectKind?, Catalog.objectKind?, Snapshot.objectKind?,
    table?_eq h _ (schemaOf_alike h catalog hn) hn.name hn.catalog]

theorem functionColumns?_eq (catalog : Catalog) (hn : n.Alike L.same n') :
    catalog.functionColumns? n = catalog.functionColumns? n' := by
  simp only [Catalog.functionColumns?, Snapshot.functionColumns?,
    keyOf_eq (h.fold_eq (schemaOf_alike h catalog hn)) (h.fold_eq hn.name)]

end Catalog

section Maps

variable {owner owner' : ColumnSource}

theorem Info.ofRecord (h : L.Lawful env) (ho : owner.Alike L.same owner') {r : ColumnRecord}
    (hr : env.catalog.Lists r) :
    L.Info (.ofRecord env.catalog owner r) (.ofRecord env.catalog owner' r) :=
  ⟨h.refl _, .some ⟨ho.schema, ho.table, .some (h.refl _), ho.objectKind⟩, rfl, rfl,
    rfl, .none, .none, h.copied (h.stored hr) _ _, .nil⟩

theorem Map.ofInfos (h : L.Lawful env) {is is' : List ColumnInfo}
    (hi : List.Forall₂ L.Info is is') :
    L.Map (.ofInfos is) (.ofInfos is') :=
  Keyed.Alike.ofList (List.rel_map (fun _ _ hi => ⟨h.fold_eq hi.name, hi⟩) hi)

theorem Map.ofRecords (h : L.Lawful env) (ho : owner.Alike L.same owner')
    {records : List ColumnRecord} (hr : ∀ r ∈ records, env.catalog.Lists r) :
    L.Map (.ofRecords env.catalog owner records) (.ofRecords env.catalog owner' records) :=
  .ofInfos h (forall₂_map_map fun r hm => .ofRecord h ho (hr r hm))

theorem Map.ofDefinitions (h : L.Lawful env) {owner owner' : String} (ho : L.same owner owner')
    {ds ds' : List ColumnDefinition}
    (hd : List.Forall₂
      (fun d d' => L.same d.name d'.name ∧ d.type = d'.type ∧ d.nullable = d'.nullable ∧
        L.allows (.dataType d.type)) ds ds') :
    L.Map (.ofDefinitions env.catalog owner ds) (.ofDefinitions env.catalog owner' ds') := by
  refine Map.ofInfos h (List.rel_map (fun d d' hd => ?_) hd)
  obtain ⟨hname, htype, hnull, ha⟩ := hd
  simp only [ColumnInfo.ofDefinition, ← htype, ← hnull]
  exact ⟨hname, .some ⟨.none, .some ho, .some hname, rfl⟩, rfl, rfl, rfl, .none, .none,
    h.copied (h.written ha) _ _, .nil⟩

theorem Map.ofColumns (h : L.Lawful env) {cs cs' : List ResultColumn}
    (hcs : List.Forall₂ L.Column cs cs')
    {renames renames' : List String} (hr : List.Forall₂ L.same renames renames') :
    L.Map (.ofColumns cs renames) (.ofColumns cs' renames') := by
  have hall (m m' : ColumnMap) (hm : L.Map m m') :
      L.Map (ColumnMap.addColumns renames cs m) (ColumnMap.addColumns renames' cs' m') := by
    induction hcs generalizing renames renames' m m' with
    | nil => exact hm
    | cons hc _ ih =>
      have hname := rel_getD (rel_head? hr) hc.alike.name
      rw [ColumnMap.addColumns, ColumnMap.addColumns, h.fold_eq hname]
      refine ih ?_ _ _ (Keyed.Alike.insertNew hm _ (.ofColumn h hname hc))
      cases hr with
      | nil => exact .nil
      | cons _ hr => exact hr
  exact hall .empty .empty .empty

end Maps

namespace Entry

variable {e e' : ResultShape.Entry}

theorem visibleName (he : L.Entry e e') : L.same e.visibleName e'.visibleName :=
  rel_getD he.aliasName he.name

theorem owner (he : L.Entry e e') : e.owner.Alike L.same e'.owner :=
  ⟨he.schema, .some he.name, .none, he.objectKind⟩

theorem markNullable (he : L.Entry e e') : L.Entry e.markNullable e'.markNullable :=
  ⟨he.catalog, he.schema, he.name, he.aliasName, he.objectKind, he.columns, rfl⟩

theorem aliased (he : L.Entry e e') {name name' : String} (hn : L.same name name') :
    L.Entry (e.aliased name) (e'.aliased name') :=
  ⟨he.catalog, he.schema, he.name, .some hn, he.objectKind, he.columns, he.forceNullable⟩

theorem columnMap? (he : L.Entry e e') : Option.Rel L.Map e.columnMap? e'.columnMap? := by
  have hc := he.columns
  unfold ResultShape.Entry.columnMap?
  generalize e.columns = c at hc
  generalize e'.columns = c' at hc
  cases hc with
  | pending => exact .none
  | unknown => exact .none
  | known hm => exact .some hm

variable (h : L.Lawful env)

include h

theorem load (he : L.Entry e e') : L.Entry (e.load env.catalog) (e'.load env.catalog) := by
  refine ⟨he.catalog, he.schema, he.name, he.aliasName, he.objectKind, ?_, he.forceNullable⟩
  have hc := he.columns
  unfold ResultShape.Entry.load
  dsimp only
  generalize e.columns = c at hc
  generalize e'.columns = c' at hc
  cases hc with
  | pending hn =>
    rw [ResultShape.EntryColumns.load, ResultShape.EntryColumns.load, ← tableColumns?_eq h _ hn]
    split
    · rename_i records hrecords
      exact .known (.ofRecords h he.owner fun r hr => ⟨_, records, hr, .inl hrecords⟩)
    · exact .unknown
  | unknown => exact .unknown
  | known hm => exact .known hm

theorem column? (he : L.Entry e e') {name name' : String} (hn : L.same name name') :
    Option.Rel L.Info (e.column? name) (e'.column? name') := by
  rw [ResultShape.Entry.column?, ResultShape.Entry.column?, h.fold_eq hn]
  exact rel_bind he.columnMap? fun _ _ hm => hm.get? _

theorem hasColumn_eq (he : L.Entry e e') {name name' : String} (hn : L.same name name') :
    e.hasColumn name = e'.hasColumn name' := isSome_eq (he.column? h hn)

theorem project (he : L.Entry e e') {name name' : String} (hn : L.same name name') :
    L.Column (e.project name) (e'.project name') := by
  have hi := he.column? h hn
  unfold ResultShape.Entry.project
  rw [← he.forceNullable]
  generalize e.column? name = i at hi
  generalize e'.column? name' = i' at hi
  cases hi with
  | some hi => exact hi.project h he.visibleName _
  | none =>
    have ho : Option.Rel (ColumnSource.Alike L.same) (some { e.owner with column := some name })
        (some { e'.owner with column := some name' }) :=
      .some ⟨he.schema, .some he.name, .some hn, he.objectKind⟩
    exact .intro ⟨hn, .none, .some he.visibleName, ho, rfl, rfl, rfl, rfl, .none, rfl, .none⟩
      (h.untyped rfl rfl) .nil

theorem projectAll? (he : L.Entry e e') :
    Option.Rel (List.Forall₂ L.Column) e.projectAll? e'.projectAll? := by
  refine rel_map he.columnMap? fun _ _ hm => List.rel_map (fun _ _ hi => ?_) hm.values
  rw [← he.forceNullable]
  exact hi.project h he.visibleName _

end Entry

namespace Scope

variable {s s' : ResultShape.Scope} {e e' : ResultShape.Entry}

theorem add (h : L.Lawful env) (hs : L.Scope s s') (he : L.Entry e e') {names names' : List String}
    (hn : List.Forall₂ L.same names names') : L.Scope (s.add e names) (s'.add e' names') := by
  refine ⟨?_, List.rel_append hs.entries (.cons he .nil)⟩
  simp only [ResultShape.Scope.add, hs.keys, hs.entries.length_eq]
  generalize s'.keys = keys
  induction hn generalizing keys with
  | nil => rfl
  | cons hn _ ih => simp only [List.foldl_cons, h.fold_eq hn, ih]

theorem index?_eq (h : L.Lawful env) (hs : L.Scope s s') {name name' : String}
    (hn : L.same name name') :
    s.index? name = s'.index? name' := by
  rw [ResultShape.Scope.index?, ResultShape.Scope.index?, h.fold_eq hn, hs.keys]

theorem markNullable (hs : L.Scope s s') (first last : Nat) :
    L.Scope (s.markNullable first last) (s'.markNullable first last) := by
  refine ⟨hs.keys,
    List.forall₂_iff_get.2 ⟨by simp [ResultShape.Scope.markNullable, hs.entries.length_eq], ?_⟩⟩
  intro i hi hi'
  simp only [ResultShape.Scope.markNullable, List.get_eq_getElem, List.getElem_mapIdx]
  have he :=
    (List.forall₂_iff_get.1 hs.entries).2 i (by simpa [ResultShape.Scope.markNullable] using hi)
    (by simpa [ResultShape.Scope.markNullable] using hi')
  split
  · exact he.markNullable
  · exact he

theorem loadAt (h : L.Lawful env) (hs : L.Scope s s') (i : Nat) :
    L.Scope (s.loadAt env.catalog i) (s'.loadAt env.catalog i) := by
  refine ⟨hs.keys,
    List.forall₂_iff_get.2 ⟨by simp [ResultShape.Scope.loadAt, hs.entries.length_eq], ?_⟩⟩
  intro j hj hj'
  simp only [ResultShape.Scope.loadAt, List.get_eq_getElem, List.getElem_modify]
  have he := (List.forall₂_iff_get.1 hs.entries).2 j (by simpa [ResultShape.Scope.loadAt] using hj)
    (by simpa [ResultShape.Scope.loadAt] using hj')
  split
  · exact he.load h
  · exact he

theorem load (h : L.Lawful env) (hs : L.Scope s s') :
    L.Scope (s.load env.catalog) (s'.load env.catalog) :=
  ⟨hs.keys, List.rel_map (fun _ _ he => he.load h) hs.entries⟩

theorem empty : L.Scope {} {} := ⟨rfl, .nil⟩

end Scope

/-- What a look-up comes to is alike. -/
inductive Lookup (L : Likeness) : ColumnLookup → ColumnLookup → Prop where
  | found {c c' : ResultColumn} (h : L.Column c c') : Lookup L (.found c) (.found c')
  | ambiguous : Lookup L .ambiguous .ambiguous
  | unresolved : Lookup L .unresolved .unresolved

namespace Scopes

variable {stack stack' : ScopeStack} {e e' : ResultShape.Entry} {name name' : String}

theorem add (h : L.Lawful env) (hs : L.Scopes stack stack') (he : L.Entry e e')
    {names names' : List String}
    (hn : List.Forall₂ L.same names names') : L.Scopes (stack.add e names)
    (stack'.add e' names') := by
  cases hs with
  | nil => exact .cons (Scope.empty.add h he hn) .nil
  | cons hs hrest => exact .cons (hs.add h he hn) hrest

theorem markNullable (hs : L.Scopes stack stack') (first last : Nat) :
    L.Scopes (stack.markNullable first last) (stack'.markNullable first last) := by
  cases hs with
  | nil => exact .nil
  | cons hs hrest => exact .cons (hs.markNullable first last) hrest

theorem tail (hs : L.Scopes stack stack') : L.Scopes stack.tail stack'.tail := by
  cases hs with
  | nil => exact .nil
  | cons _ hrest => exact hrest

theorem size_eq (hs : L.Scopes stack stack') : stack.size = stack'.size := by
  cases hs with
  | nil => rfl
  | cons hs _ => exact hs.entries.length_eq

theorem entryAt? (hs : L.Scopes stack stack') (i : Nat) :
    Option.Rel L.Entry (stack.entryAt? i) (stack'.entryAt? i) :=
  rel_bind (rel_head? hs) fun _ _ hs => rel_getElem? hs.entries i

theorem through (h : L.Lawful env) (hn : L.same name name') {es es' : List ResultShape.Entry}
    (he : List.Forall₂ L.Entry es es') : L.Lookup (.through name es) (.through name' es') := by
  rcases he with _ | ⟨he, _ | ⟨_, _⟩⟩
  · exact .unresolved
  · exact .found (he.project h hn)
  · exact .ambiguous

variable (h : L.Lawful env)

include h

private theorem lookupQualified (hs : L.Scopes stack stack') {qualifier qualifier' : String}
    (hq : L.same qualifier qualifier') (hn : L.same name name') :
    L.Lookup (ScopeStack.lookupQualified env.catalog qualifier name stack).1
        (ScopeStack.lookupQualified env.catalog qualifier' name' stack').1 ∧
      L.Scopes (ScopeStack.lookupQualified env.catalog qualifier name stack).2
        (ScopeStack.lookupQualified env.catalog qualifier' name' stack').2 := by
  induction hs with
  | nil => exact ⟨.unresolved, .nil⟩
  | cons hs hrest ih =>
    unfold ScopeStack.lookupQualified
    rw [hs.index?_eq h hq]
    split
    · rename_i i _
      have hload := hs.loadAt h i
      exact ⟨through h hn (forall₂_toList (rel_getElem? hload.entries i)), .cons hload hrest⟩
    · exact ⟨ih.1, .cons hs ih.2⟩

private theorem owners (hs : L.Scopes stack stack') (hn : L.same name name') :
    List.Forall₂ L.Entry (ScopeStack.owners env.catalog name stack).1
        (ScopeStack.owners env.catalog name' stack').1 ∧
      L.Scopes (ScopeStack.owners env.catalog name stack).2
        (ScopeStack.owners env.catalog name' stack').2 := by
  induction hs with
  | nil => exact ⟨.nil, .nil⟩
  | @cons s s' _ _ hs hrest ih =>
    have hload := hs.load h
    have hfound := List.rel_filter (p := (·.hasColumn name)) (q := (·.hasColumn name'))
      (fun _ _ he => by simp only [he.hasColumn_eq h hn]) hload.entries
    unfold ScopeStack.owners
    dsimp only
    generalize (s.load env.catalog).entries.filter (·.hasColumn name) = found at hfound
    generalize (s'.load env.catalog).entries.filter (·.hasColumn name') = found' at hfound
    cases hfound with
    | nil => exact ⟨ih.1, .cons hload ih.2⟩
    | cons he hes => exact ⟨.cons he hes, .cons hload hrest⟩

omit h in
private theorem unknown (hs : L.Scopes stack stack') :
    List.Forall₂ L.Entry stack.unknown stack'.unknown := by
  have hentries :
      List.Forall₂ L.Entry (stack.head?.elim [] (·.entries))
        (stack'.head?.elim [] (·.entries)) := by
    cases hs with
    | nil => exact .nil
    | cons hs _ => exact hs.entries
  exact List.rel_filter (fun _ _ he => by simp only [isNone_eq he.columnMap?]) hentries

/-- A look-up comes to the same in alike scopes, and leaves alike scopes. -/
theorem lookup (hs : L.Scopes stack stack') {ref ref' : ColumnRef}
    (hschema : Option.Rel L.same ref.schema ref'.schema)
    (hq : Option.Rel L.same ref.qualifier ref'.qualifier) (hn : L.same ref.name ref'.name) :
    L.Lookup (ScopeStack.lookup env.catalog ref stack).1
      (ScopeStack.lookup env.catalog ref' stack').1 ∧
      L.Scopes (ScopeStack.lookup env.catalog ref stack).2
        (ScopeStack.lookup env.catalog ref' stack').2 := by
  unfold ScopeStack.lookup
  generalize ref.qualifier = qualifier at hq
  generalize ref'.qualifier = qualifier' at hq
  cases hq with
  | some hq =>
    refine lookupQualified h hs ?_ hn
    generalize ref.schema = schema at hschema
    generalize ref'.schema = schema' at hschema
    cases hschema with
    | none => exact hq
    | some hschema => exact h.append (h.append hschema (h.refl _)) hq
  | none =>
    obtain ⟨hfound, hstack⟩ := owners h hs hn
    unfold ScopeStack.lookupUnqualified
    generalize ScopeStack.owners env.catalog ref.name stack = p at hfound hstack
    generalize ScopeStack.owners env.catalog ref'.name stack' = p' at hfound hstack
    obtain ⟨found, loaded⟩ := p
    obtain ⟨found', loaded'⟩ := p'
    cases hfound with
    | nil => exact ⟨through h hn (unknown hstack), hstack⟩
    | cons he hes => exact ⟨through h hn (.cons he hes), hstack⟩

/-- A star stands for alike columns in alike scopes, and leaves alike scopes. -/
theorem expand (hs : L.Scopes stack stack') {qualifier qualifier' : Option String}
    (hq : Option.Rel L.same qualifier qualifier') :
    Option.Rel (List.Forall₂ L.Column) (ScopeStack.expand env.catalog qualifier stack).1
        (ScopeStack.expand env.catalog qualifier' stack').1 ∧
      L.Scopes (ScopeStack.expand env.catalog qualifier stack).2
        (ScopeStack.expand env.catalog qualifier' stack').2 := by
  cases hs with
  | nil => exact ⟨.none, .nil⟩
  | @cons s s' _ _ hs hrest =>
    cases hq with
    | some hq =>
      simp only [ScopeStack.expand, hs.index?_eq h hq]
      split
      · rename_i i _
        have hload := hs.loadAt h i
        exact ⟨rel_bind (rel_getElem? hload.entries i) fun _ _ he => he.projectAll? h,
          .cons hload hrest⟩
      · exact ⟨.none, .cons hs hrest⟩
    | none =>
      have hload := hs.load h
      have hall := List.rel_filterMap (fun _ _ he => Entry.projectAll? h he) hload.entries
      refine ⟨?_, .cons hload hrest⟩
      simp only [ScopeStack.expand, ScopeStack.expandAll]
      generalize (s.load env.catalog).entries.filterMap ResultShape.Entry.projectAll? = all at hall
      generalize (s'.load env.catalog).entries.filterMap
        ResultShape.Entry.projectAll? = all' at hall
      cases hall with
      | nil => exact .none
      | cons hcs hall => exact .some (List.rel_flatten (.cons hcs hall))

end Scopes

end ResultShape.Likeness
