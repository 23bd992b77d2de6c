import ResultShape.Analysis.Routine
import ResultShape.Proofs.Alike.Source
import ResultShape.Proofs.Sql.Definitions
/-! Alike queries: a query and the query rewritten have alike result sets, at any depth. -/
namespace ResultShape.Likeness

variable {L : Likeness} {env : Env} {n n' : ResultShape.Nested}

namespace Set

variable {s s' : ResultSet} (h : L.Lawful env)

include h

theorem ofProjection {p p' : ResultShape.Projection} (hp : L.Projection p p') :
    L.Set p.resultSet p'.resultSet :=
  ⟨assignNames h hp.columns, rfl, rfl, .none, rfl, rfl, hp.hasWildcard, fun _ => rfl, .none⟩

theorem asDocument {q : Query} (hs : L.Set s s') {f f' : ForJson} (hf : f.Alike L.same f') :
    L.Set (s.asDocument q f) (s'.asDocument (q.rewrite L.rewriting) f') := by
  have harray : f.returnsArray = f'.returnsArray := by
    rw [ForJson.returnsArray, ForJson.returnsArray, hf.withoutArrayWrapper]
  have hnulls : f.includesNulls = f'.includesNulls := by
    rw [ForJson.includesNulls, ForJson.includesNulls, hf.includeNullValues]
  refine ⟨hs.columns, rfl, harray, hf.rootName, hnulls, ?_, hs.hasWildcardProjection,
    fun hcs => ?_, hs.reference⟩
  · simp only [ResultSet.asDocument, harray, hs.jsonSingleRowGuaranteed,
      h.keepsForm.singleRow_rewrite (fold_name h)]
  · exact congrArg₂ (ResultColumn.jsonFields · "") hf.mode hcs

end Set

section

variable (h : L.Lawful env)

include h

/-- A block and the block rewritten project alike columns, in the scope that they fill. -/
theorem select (hn : L.Nested env n n') (s : Select) (hq : ∀ q ∈ s.queries, L.Allows q)
    (hk : ∀ k ∈ s.constructs, L.allows k) :
    L.Agree env L.Projection (s.project n) ((s.rewrite L.rewriting).project n') := by
  simp only [Select.queries, Select.constructs, List.mem_append, List.mem_flatMap,
    or_imp, forall_and, forall_exists_index, and_imp] at hq hk
  unfold Select.project
  rw [Select.sources_rewrite, Select.items_rewrite]
  have hsources := registerAll h hn s.sources (fun t ht q hm => hq.1 q t ht hm) fun t ht k hm =>
      hk.1 k t ht hm
  exact hsources.bind fun _ _ _ =>
    projectAll h s.items (fun i hi q hm => (hn q (hq.2 q i hi hm)).1) fun i hi k hm =>
      hk.2 k i hi hm

theorem body (hn : L.Nested env n n') (b : Body) (hq : ∀ q ∈ b.queries, L.Allows q)
    (hk : ∀ k ∈ b.constructs, L.allows k) :
    L.Agree env L.Projection (b.project n) ((b.rewrite L.rewriting).project n') := by
  induction b using Body.project.induct with
  | case1 block =>
    rw [Body.rewrite]
    exact (select h hn block hq hk).inScope
  | case2 query =>
    rw [Body.rewrite]
    exact (hn query (hq query (by simp [Body.queries]))).1.bind fun _ _ hs =>
      .pure ⟨hs.columns, hs.hasWildcardProjection⟩
  | case3 op left right ihl ihr =>
    simp only [Body.queries, Body.constructs, List.mem_append, List.mem_cons, or_imp, forall_and,
      forall_eq] at hq hk
    rw [Body.rewrite]
    exact (ihl hq.1 hk.2.1).bind fun _ _ hl => (ihr hq.2 hk.2.2).bind fun _ _ hr =>
      .pure (hl.union h hk.1 hr)

private theorem forJson?_alike (config : Config) (q : Query) :
    Option.Rel (ForJson.Alike L.same) (q.forJson? config)
      ((q.rewrite L.rewriting).forJson? config) := by
  unfold Query.forJson?
  rw [Query.forClause_rewrite, Query.sourceText_rewrite]
  cases q.forClause.bind ForJson.ofClause? with
  | none => exact .none
  | some f =>
    refine .some ?_
    dsimp only
    split
    · exact h.fill f q.sourceText
    · exact ⟨rfl, rfl, rel_refl h.refl _, rfl⟩

private theorem resolveWith (hn : L.Nested env n n') {q : Query} (ha : L.Allows q) :
    L.Agree env L.Set (q.resolveWith n) ((q.rewrite L.rewriting).resolveWith n') := by
  have hctes : List.Forall₂ L.Cte q.ctes (q.rewrite L.rewriting).ctes := by
    rw [Query.ctes_rewrite]
    exact forall₂_map_of_mem fun cte hc =>
      ⟨rfl, ha.inner (List.mem_append_left _ (List.mem_map_of_mem hc))⟩
  have hbody :
      L.Agree env L.Projection (q.body.project n) ((q.rewrite L.rewriting).body.project n') := by
    rw [Query.body_rewrite]
    exact body h hn q.body (fun r hr => ha.inner (List.mem_append_right _ hr)) fun k hk =>
      ha k (q.constructs_body_subset hk)
  refine (hbody.withCtes hctes).bind fun p p' hp => .read (.pure ?_)
  have hset := Set.ofProjection h hp
  have hf := forJson?_alike h env.config q
  generalize q.forJson? env.config = f at hf
  generalize (q.rewrite L.rewriting).forJson? env.config = f' at hf
  cases hf with
  | none => exact hset
  | some hf => exact hset.asDocument h hf

private theorem anchorWith (hn : L.Nested env n n') {q : Query} (ha : L.Allows q) :
    L.Agree env (List.Forall₂ L.Column) (q.anchorWith n)
      ((q.rewrite L.rewriting).anchorWith n') := by
  unfold Query.anchorWith
  rw [Query.body_rewrite, Body.leftmost_rewrite]
  refine (body h hn q.body.leftmost (fun r hr => ?_) fun k hk => ?_).bind fun _ _ hp =>
    .pure (assignNames h hp.columns)
  · exact ha.inner (List.mem_append_right _ (q.body.queries_leftmost_subset hr))
  · exact ha k (q.constructs_body_subset (q.body.constructs_leftmost_subset hk))

/-- However deep queries are resolved, a query and the query rewritten are resolved alike. -/
theorem within (k : Nat) : L.Nested env (.within k) (.within k) := by
  induction k with
  | zero => exact fun _ _ => ⟨.read (.throw _), .read (.throw _)⟩
  | succ k ih => exact fun _ ha => ⟨(resolveWith h ih ha).opening, (anchorWith h ih ha).opening⟩

end

section Changes

private theorem targetReference_alike {stack stack' : ScopeStack} (hs : L.Scopes stack stack') :
    Option.Rel (Reference.Alike L.same) (Walk.targetReference stack)
      (Walk.targetReference stack') := by
  refine rel_bind (rel_head? hs) fun s s' hs => ?_
  have hindex : Option.Rel Eq (s.index? "inserted") (s'.index? "inserted") := by
    rw [ResultShape.Scope.index?, ResultShape.Scope.index?, hs.keys]
    exact rel_refl (fun _ => rfl) _
  change Option.Rel _ ((s.index? "inserted").bind _) ((s'.index? "inserted").bind _)
  refine rel_bind hindex ?_
  rintro i _ rfl
  refine rel_bind (rel_getElem? hs.entries i) fun e e' he => rel_bind (R := Eq) ?_ ?_
  · rw [he.objectKind]
    exact rel_refl (fun _ => rfl) _
  · rintro kind _ rfl
    exact .some ⟨rfl, he.catalog, he.schema, he.name⟩

variable (h : L.Lawful env)

include h

private theorem registerChange (hn : L.Nested env n n') {target : Source} {sources : List Source}
    (hq : ∀ s ∈ target :: sources, ∀ q ∈ s.queries, L.Allows q)
    (hk : ∀ s ∈ target :: sources, ∀ k ∈ s.constructs, L.allows k) (isMerge : Bool) :
    L.Agree env Any (Walk.registerChange n target sources isMerge)
      (Walk.registerChange n' (target.rewrite L.rewriting)
        (sources.map (Source.rewrite L.rewriting)) isMerge) := by
  rw [List.forall_mem_cons] at hq hk
  have hsources := registerAll h hn sources hq.2 hk.2
  have htarget := registerTarget h hn hq.1 hk.1
  cases isMerge with
  | true => exact (htarget true).bind fun _ _ _ => hsources
  | false => exact hsources.bind fun _ _ _ => htarget false

theorem changedRows (hn : L.Nested env n n') {ctes : List ResultShape.Cte} {target : Source}
    {sources : List Source} {items : List Item} (hctes : ∀ cte ∈ ctes, L.Allows cte.query)
    (hq : ∀ s ∈ target :: sources, ∀ q ∈ s.queries, L.Allows q)
    (hk : ∀ s ∈ target :: sources, ∀ k ∈ s.constructs, L.allows k)
    (hqi : ∀ i ∈ items, ∀ q ∈ i.queries, L.Allows q)
    (hki : ∀ i ∈ items, ∀ k ∈ i.constructs, L.allows k) (isMerge : Bool) :
    L.Agree env L.Set (Walk.changedRows ctes target sources isMerge items n)
      (Walk.changedRows (ctes.map (Cte.rewrite L.rewriting)) (target.rewrite L.rewriting)
        (sources.map (Source.rewrite L.rewriting)) isMerge
          (items.map (Item.rewrite L.rewriting)) n') := by
  have hitems := projectAll h items (fun i hi q hm => (hn q (hqi i hi q hm)).1) hki
  refine (Agree.withCtes ?_ ((registerChange h hn hq hk isMerge).bind fun _ _ _ =>
    (hitems.bind fun _ _ hp => .pure (Set.ofProjection h hp)).bind fun _ _ hs => .get fun c c' hc =>
      .pure ?_)).inScope
  · exact forall₂_map_of_mem fun cte hc => ⟨rfl, hctes cte hc⟩
  · exact ⟨hs.columns, hs.returnsJson, hs.returnsJsonArray, hs.jsonRootName, hs.jsonIncludeNulls,
      hs.jsonSingleRowGuaranteed, hs.hasWildcardProjection, hs.jsonShape,
      targetReference_alike hc.scopes⟩

end Changes

end ResultShape.Likeness
