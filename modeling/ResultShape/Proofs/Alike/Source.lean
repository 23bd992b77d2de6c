import ResultShape.Proofs.Alike.Expr
import ResultShape.Proofs.Alike.Naming
/-! Alike sources: a source and the source rewritten make alike entries if the queries
inside them have alike results. -/
namespace ResultShape.Likeness

variable {L : Likeness} {env : Env} {n n' : ResultShape.Nested}

/-- The constructs of the query are allowed, and so are those of the queries inside it. -/
def Allows (L : Likeness) (q : Query) : Prop := ∀ k ∈ q.constructs, L.allows k

theorem Allows.inner {q r : Query} (h : L.Allows q) (hr : r ∈ q.inner) : L.Allows r :=
  fun k hk => h k (Query.constructs_subset_of_mem_inner hr hk)

variable (h : L.Lawful env)

include h

private theorem names_alike (aliasName : Option String) {names names' : List String}
    (hn : List.Forall₂ L.same names names') :
    List.Forall₂ L.same (aliasName.toList ++ names)
      ((aliasName.map L.rewriting.name).toList ++ names') :=
  List.rel_append (forall₂_toList (rel_of_map _ h.name aliasName)) hn

private theorem computeCte_agree (hn : L.Nested env n n') {cte cte' : ResultShape.Cte}
    (hc : L.Cte cte cte') :
    L.Agree env L.Map (Analysis.computeCte n cte) (Analysis.computeCte n' cte') := by
  obtain ⟨rfl, ha⟩ := hc
  obtain ⟨hquery, hanchor⟩ := hn cte.query ha
  have hcolumns : List.Forall₂ L.same cte.columns (cte.columns.map L.rewriting.name) :=
    forall₂_of_map _ h.name _
  have hset :
      L.Agree env L.Map (n.query cte.query >>= fun set => return .ofColumns set.columns cte.columns)
      (n'.query (cte.query.rewrite L.rewriting) >>= fun set =>
        return .ofColumns set.columns (cte.columns.map L.rewriting.name)) :=
    hquery.bind fun _ _ hs => .pure (.ofColumns h hs.columns hcolumns)
  have hset? : (cte.rewrite L.rewriting).query.body.isSetOp = cte.query.body.isSetOp := by
    rw [Cte.rewrite, Query.body_rewrite, Body.isSetOp_rewrite]
  unfold Analysis.computeCte
  simp only [hset?]
  split
  · exact hanchor.bind fun _ _ hcs =>
      (Agree.modify fun _ _ hc => hc.setCteAnchor h (h.name _) (.ofColumns h hcs hcolumns)).bind
        fun _ _ _ => hset
  · exact hset

private theorem cteColumns_agree (hn : L.Nested env n n') {cte cte' : ResultShape.Cte}
    (hcte : L.Cte cte cte') :
    L.Agree env L.Map (Analysis.cteColumns n cte) (Analysis.cteColumns n' cte') := by
  have hname : L.same cte.name cte'.name := hcte.eq ▸ h.name cte.name
  refine .get fun c c' hc => ?_
  have hcached := hc.cachedCte? h hname
  generalize c.cachedCte? cte.name = cached at hcached
  generalize c'.cachedCte? cte'.name = cached' at hcached
  cases hcached with
  | some hm => exact .pure hm
  | none =>
    dsimp only
    rw [hc.isCteInProgress_eq h hname]
    split
    · exact .pure (rel_getD (hc.cteAnchor? h hname) .empty)
    · exact ((computeCte_agree h hn hcte).computingCte h hname).bind fun _ _ hm =>
        (Agree.modify fun _ _ hc => hc.cacheCte h hname hm).bind fun _ _ _ => .pure hm

private theorem resolved_alike {name name' : String} (hname : L.same name name')
    (aliasName : Option String) {m m' : Option ColumnMap} (hm : Option.Rel L.Map m m') :
    L.Entry (.resolved name aliasName m) (.resolved name' (aliasName.map L.rewriting.name) m') := by
  refine ⟨.none, .none, hname, rel_of_map _ h.name _, rfl, ?_, rfl⟩
  cases hm with
  | none => exact .unknown
  | some hm => exact .known hm

private theorem addLocal_agree (name : String) (aliasName : Option String) :
    L.Agree env Any (Analysis.addLocal name aliasName)
      (Analysis.addLocal (L.rewriting.name name) (aliasName.map L.rewriting.name)) := by
  refine Agree.bindings.bind fun b b' hb => ?_
  have hm := hb.tables.get? (Text.fold name)
  rw [Bindings.table?, Bindings.table?, fold_name h]
  exact .addEntry h (resolved_alike h (h.name _) aliasName hm)
    (names_alike h aliasName (.cons (h.name _) .nil))

private theorem addTable_agree (name : Name) (aliasName : Option String) :
    L.Agree env Any (Analysis.addTable name aliasName)
      (Analysis.addTable (name.rewrite L.rewriting) (aliasName.map L.rewriting.name)) := by
  have hname := name_alike h name
  refine .defaultSchema (.catalog (.addEntry h ?_ ?_))
  · rw [← objectKind?_eq h env.catalog hname]
    have hschema := rel_getD hname.schema (h.refl env.config.defaultSchema)
    exact ⟨hname.catalog, .some hschema, hname.name, rel_of_map _ h.name _, rfl,
      .pending ⟨hname.catalog, .some hschema, hname.name⟩, rfl⟩
  · have hschema := rel_getD hname.schema (h.refl env.config.defaultSchema)
    have hin := h.append (h.append hschema (h.refl ".")) hname.name
    have hfull := rel_map hname.catalog fun _ _ hc => h.append (h.append hc (h.refl ".")) hin
    have hnames := List.rel_append (.cons hname.name (.cons hin .nil)) (forall₂_toList hfull)
    simpa only [List.append_assoc] using names_alike h aliasName hnames

private theorem addNamed_agree (hn : L.Nested env n n') (name : Name) (aliasName : Option String) :
    L.Agree env Any (Analysis.addNamed n name aliasName)
      (Analysis.addNamed n' (name.rewrite L.rewriting) (aliasName.map L.rewriting.name)) := by
  have hlocal : (name.rewrite L.rewriting).isLocal = name.isLocal :=
    Text.isLocal_eq (isSome_schema_rewrite _ name) (fold_name h name.name)
  unfold Analysis.addNamed
  rw [hlocal]
  split
  · exact addLocal_agree h _ _
  · refine .get fun c c' hc => ?_
    have hcte := hc.cteNamed? h (name_alike h name)
    generalize c.cteNamed? name = cte at hcte
    generalize c'.cteNamed? (name.rewrite L.rewriting) = cte' at hcte
    cases hcte with
    | none => exact addTable_agree h _ _
    | @some cte cte' hcte =>
      have hname : L.same cte.name cte'.name := hcte.eq ▸ h.name cte.name
      refine (cteColumns_agree h hn hcte).bind fun m m' hm =>
        .addEntry h ?_ (names_alike h aliasName (.cons hname .nil))
      have he := resolved_alike h hname aliasName (.some hm)
      exact ⟨he.catalog, he.schema, he.name, he.aliasName, he.objectKind, he.columns,
        he.forceNullable⟩

private theorem addDerived_agree (hn : L.Nested env n n') {q : Query} (ha : L.Allows q)
    (aliasName : String) (columns : List String) :
    L.Agree env Any (Analysis.addDerived n q aliasName columns)
      (Analysis.addDerived n' (q.rewrite L.rewriting) (L.rewriting.name aliasName)
        (columns.map L.rewriting.name)) :=
  (hn q ha).1.bind fun _ _ hs =>
    have hm := Map.ofColumns h hs.columns (forall₂_of_map _ h.name columns)
    .addEntry h (resolved_alike h (h.name _) none (.some hm)) (.cons (h.name _) .nil)

private theorem functionColumns_agree {function function' : Name}
    (hf : function.Alike L.same function')
    {owner owner' : ColumnSource} (ho : owner.Alike L.same owner') :
    L.Agree env (Option.Rel L.Map) (Analysis.functionColumns function owner)
      (Analysis.functionColumns function' owner') := by
  refine .catalog (.pure ?_)
  rw [← functionColumns?_eq h env.catalog hf]
  cases hrecords : env.catalog.functionColumns? function with
  | none => exact .none
  | some records =>
    refine .some (.ofInfos h (forall₂_map_map fun r hr => ?_))
    have hi := Info.ofRecord h ho (r := r) ⟨function, records, hr, .inr (.inl hrecords)⟩
    exact ⟨hi.name, hi.source, rfl, rfl, rfl, .some ⟨rfl, hf.catalog, hf.schema, hf.name⟩, .none,
      hi.holds, .nil⟩

/-- A column that is given its type where it is declared, or by the analysis itself. -/
private theorem info_typed {name name' : String} (hn : L.same name name') (sqlType : SqlType)
    (isNullable : Bool)
    {json : Option JsonInfo} (hj : Option.Rel (JsonInfo.Alike L.same) json json) :
    L.Info { name, sqlType := some sqlType, isNullable := some isNullable, json }
      { name := name', sqlType := some sqlType, isNullable := some isNullable, json } :=
  ⟨hn, .none, rfl, rfl, rfl, .none, hj, h.untyped rfl rfl, .nil⟩

private theorem addFunction_agree (name : Name) (aliasName : Option String) :
    L.Agree env Any (Analysis.addFunction name aliasName)
      (Analysis.addFunction (name.rewrite L.rewriting) (aliasName.map L.rewriting.name)) := by
  have hname := name_alike h name
  have hsplit :
      ((name.rewrite L.rewriting).schema.isNone &&
        Text.same (name.rewrite L.rewriting).name "string_split") =
      (name.schema.isNone && Text.same name.name "string_split") := by
    rw [isNone_eq hname.schema]
    exact congrArg _ (same_name h _ _)
  unfold Analysis.addFunction
  rw [hsplit]
  split
  · have hm : L.Map (.ofInfos [.typed "value" (.nvarchar 4000) false])
        (.ofInfos [.typed "value" (.nvarchar 4000) false]) :=
      .ofInfos h (.cons (info_typed h (h.refl _) _ _ .none) .nil)
    exact .addEntry h (resolved_alike h hname.name aliasName (.some hm))
      (names_alike h aliasName (.cons hname.name .nil))
  · refine .defaultSchema ?_
    have hschema := rel_getD hname.schema (h.refl env.config.defaultSchema)
    have hf :
        Name.Alike L.same { name with schema := some (name.schema.getD env.config.defaultSchema) }
        { name.rewrite L.rewriting with
          schema := some ((name.rewrite L.rewriting).schema.getD env.config.defaultSchema) } :=
      ⟨hname.catalog, .some hschema, hname.name⟩
    have ho : ColumnSource.Alike L.same
        { schema := name.schema.getD env.config.defaultSchema, table := name.name,
          objectKind := some .function }
        { schema := (name.rewrite L.rewriting).schema.getD env.config.defaultSchema
          table := (name.rewrite L.rewriting).name
          objectKind := some .function } :=
      ⟨.some hschema, .some hname.name, .none, rfl⟩
    refine (functionColumns_agree h hf ho).bind fun m m' hm =>
      .addEntry h ?_ (names_alike h aliasName (.cons hname.name .nil))
    have he := resolved_alike h hname.name aliasName hm
    exact ⟨he.catalog, .some hschema, he.name, he.aliasName, rfl, he.columns, he.forceNullable⟩

private theorem openJsonColumn_alike {c : OpenJsonColumn} (ha : L.allows (.dataType c.type)) :
    L.Info (Analysis.openJsonColumn env.catalog c)
      (Analysis.openJsonColumn env.catalog (c.rewrite L.rewriting)) := by
  have hasJson : (c.rewrite L.rewriting).asJson = c.asJson := rfl
  rw [Analysis.openJsonColumn, Analysis.openJsonColumn, hasJson]
  split
  · have hj : JsonInfo.Alike L.same { shapeUnknown := true } { shapeUnknown := true } :=
      ⟨rfl, .none, rfl, rfl, rfl⟩
    exact info_typed h (h.name _) _ _ (.some hj)
  · exact ⟨h.name _, .none, rfl, rfl, rfl, .none, .none, h.copied (h.written ha) none _, .nil⟩

private theorem addOpenJson_agree {declared : List OpenJsonColumn}
    (ha : ∀ c ∈ declared, L.allows (.dataType c.type)) (aliasName : Option String) :
    L.Agree env Any (Analysis.addOpenJson declared aliasName)
      (Analysis.addOpenJson (declared.map (·.rewrite L.rewriting))
        (aliasName.map L.rewriting.name)) := by
  refine .catalog (.addEntry h (resolved_alike h (h.refl _) aliasName (.some (.ofInfos h ?_)))
    (names_alike h aliasName (.cons (h.refl _) .nil)))
  rw [List.isEmpty_map]
  split
  · exact .cons (info_typed h (h.refl _) _ _ .none) (.cons (info_typed h (h.refl _) _ _ .none)
      (.cons (info_typed h (h.refl _) _ _ .none) .nil))
  · rw [List.map_map]
    exact forall₂_map_map fun c hc => openJsonColumn_alike h (ha c hc)

omit h in
private theorem added_agree {x y : Analysis Unit} (hx : L.Agree env Any x y) :
    L.Agree env Eq (Analysis.added x) (Analysis.added y) := by
  refine .get fun c c' hc => hx.bind fun _ _ _ => .get fun c₁ c₁' hc₁ => ?_
  rw [Scopes.size_eq hc.scopes, Scopes.size_eq hc₁.scopes]
  exact .pure rfl

omit h in
private theorem markSide_agree (isNullable : Bool) (side : Nat × Nat) :
    L.Agree env Any (Analysis.markSide isNullable side) (Analysis.markSide isNullable side) := by
  cases isNullable with
  | false => exact .pure trivial
  | true => exact .modify fun _ _ hc => hc.withScopes (Scopes.markNullable hc.scopes _ _)

/-- A source and the source rewritten are registered alike, in the same positions. -/
theorem register (hn : L.Nested env n n') (s : Source) (hq : ∀ q ∈ s.queries, L.Allows q)
    (hk : ∀ k ∈ s.constructs, L.allows k) :
    L.Agree env Eq (s.register n) ((s.rewrite L.rewriting).register n') := by
  induction s using Source.register.induct with
  | case1 name aliasName =>
    rw [Source.rewrite]
    exact added_agree (addNamed_agree h hn name aliasName)
  | case2 name aliasName =>
    rw [Source.rewrite]
    exact added_agree (addLocal_agree h name aliasName)
  | case3 query aliasName columns =>
    rw [Source.rewrite]
    exact added_agree
      (addDerived_agree h hn (hq query (by simp [Source.queries])) aliasName columns)
  | case4 name args aliasName =>
    rw [Source.rewrite]
    exact added_agree (addFunction_agree h name aliasName)
  | case5 value path columns aliasName =>
    rw [Source.rewrite]
    have htypes (c : OpenJsonColumn) (hc : c ∈ columns) : L.allows (.dataType c.type) :=
      hk _ (by simpa [Source.constructs] using ⟨c, hc, rfl⟩)
    exact added_agree (addOpenJson_agree h htypes aliasName)
  | case6 kind left right on ihl ihr =>
    simp only [Source.queries, Source.constructs, List.mem_append, or_imp, forall_and] at hq hk
    rw [Source.rewrite]
    refine added_agree ((ihl hq.1 hk.1).bind ?_)
    rintro l _ rfl
    refine (ihr hq.2 hk.2).bind ?_
    rintro r _ rfl
    exact (markSide_agree _ l).bind fun _ _ _ => markSide_agree _ r

theorem registerAll (hn : L.Nested env n n') (ss : List Source)
    (hq : ∀ s ∈ ss, ∀ q ∈ s.queries, L.Allows q) (hk : ∀ s ∈ ss, ∀ k ∈ s.constructs, L.allows k) :
    L.Agree env Any (ss.forM fun s => discard (s.register n))
      ((ss.map (Source.rewrite L.rewriting)).forM fun s => discard (s.register n')) :=
  .forM_map _ fun s hs => (register h hn s (hq s hs) (hk s hs)).discard

private theorem registered?_eq {stack stack' : ScopeStack} (hs : L.Scopes stack stack')
    (target : Source) :
    target.registered? stack = (target.rewrite L.rewriting).registered? stack' := by
  have hindex {name name' : String} (hn : L.same name name') :
      stack.head?.bind (·.index? name) = stack'.head?.bind (·.index? name') := by
    cases hs with
    | nil => rfl
    | cons hs _ => exact hs.index?_eq h hn
  match target with
  | .named name none =>
    rw [Source.rewrite]
    refine hindex ?_
    cases hschema : name.schema with
    | none => simpa only [Name.rewrite, hschema, Option.map, Option.elim] using h.name name.name
    | some schema =>
      simpa only [Name.rewrite, hschema, Option.map, Option.elim] using
        h.append (h.append (h.name schema) (h.refl ".")) (h.name name.name)
  | .named _ (some _) | .var .. | .derived .. | .function .. | .openJson .. | .join .. =>
    simp only [Source.rewrite, Source.registered?, Option.map_some]

private theorem targetPosition_agree (hn : L.Nested env n n') {target : Source}
    (hq : ∀ q ∈ target.queries, L.Allows q) (hk : ∀ k ∈ target.constructs, L.allows k) :
    L.Agree env Eq (target.targetPosition n) ((target.rewrite L.rewriting).targetPosition n') := by
  refine .get fun c c' hc => ?_
  rw [registered?_eq h hc.scopes]
  split
  · exact .pure rfl
  · refine (register h hn target hq hk).bind ?_
    rintro range _ rfl
    exact .pure rfl

private theorem addPseudoTables_agree (position : Nat) (nullable : Bool) :
    L.Agree env Any (Analysis.addPseudoTables position nullable)
      (Analysis.addPseudoTables position nullable) := by
  refine .get fun c c' hc => ?_
  have hentry := Scopes.entryAt? hc.scopes position
  generalize c.scopes.entryAt? position = entry at hentry
  generalize c'.scopes.entryAt? position = entry' at hentry
  cases hentry with
  | none => exact .pure trivial
  | some he =>
    refine .catalog (.forM (R := Eq) ?_ (List.forall₂_same.2 fun _ _ => rfl))
    rintro pseudo _ rfl
    have hcopy := (he.load h).aliased (h.refl pseudo)
    refine .addEntry h ?_ (.cons (h.refl pseudo) .nil)
    split
    · exact hcopy.markNullable
    · exact hcopy

theorem registerTarget (hn : L.Nested env n n') {target : Source}
    (hq : ∀ q ∈ target.queries, L.Allows q)
    (hk : ∀ k ∈ target.constructs, L.allows k) (nullable : Bool) :
    L.Agree env Any (target.registerTarget n nullable)
      ((target.rewrite L.rewriting).registerTarget n' nullable) := by
  refine (targetPosition_agree h hn hq hk).bind ?_
  rintro position _ rfl
  exact addPseudoTables_agree h position nullable

end ResultShape.Likeness
