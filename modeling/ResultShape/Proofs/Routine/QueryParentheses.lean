import ResultShape.Proofs.Routine.NamedQuery
/-! Parentheses around queries: each pair opens one more query, which names the columns
of the one inside it again. -/
namespace ResultShape

/-- The query in so many pairs of parentheses. -/
def Query.parenthesized (q : Query) : Nat → Query
  | 0 => q
  | n + 1 => ⟨.nested (q.parenthesized n), [], [], none, none⟩

/-- The context inside so many pairs of parentheses. -/
def Context.inParentheses (c : Context) : Nat → Context
  | 0 => c
  | n + 1 => { c with depth := c.depth + 1 }.pushCtes [] |>.inParentheses n

/-- Some name is referred to in none of the queries. -/
theorem Query.exists_avoids (qs : List Query) : ∃ name, ∀ q ∈ qs, q.Avoids name := by
  let names := qs.flatMap fun q => q.subqueries.flatMap fun r => r.body.references.map fun n =>
      Text.fold n.name
  have hnumbers := Set.infinite_range_of_injective (ResultColumn.fold_numbered_injective "")
  obtain ⟨key, ⟨i, rfl⟩, hi⟩ := hnumbers.exists_notMem_finset names.toFinset
  rw [List.mem_toFinset] at hi
  refine ⟨"" ++ toString (i + 2), fun q hq r hr n hn => Bool.eq_false_iff.2 fun hsame => hi ?_⟩
  have hm : Text.fold n.name ∈ names :=
    List.mem_flatMap.2 ⟨q, hq, List.mem_flatMap.2 ⟨r, hr, List.mem_map_of_mem hn⟩⟩
  rwa [Text.same_iff.1 hsame] at hm

namespace Context.Around

variable {name : String} {more : Nat} {c c' : Context}

/-- Nothing may be around a context, under a name that its CTEs do not refer to. -/
theorem self (h : ∀ cte ∈ c.cteFrames.flatten, cte.query.Avoids name) : c.Around name 0 c :=
  ⟨.refl _, rfl, rfl, rfl, fun _ _ => rfl, fun _ _ _ hf => h _ (List.mem_of_find?_eq_some hf),
    fun _ _ => rfl, fun _ _ => rfl, fun _ _ => rfl⟩

theorem inParentheses (h : c.Around name more c') (n : Nat) :
    c.Around name (more + n) (c'.inParentheses n) := by
  induction n generalizing c' more with
  | zero => exact h
  | succ n ih =>
    have hdeeper : c.Around name (more + 1) { c' with depth := c'.depth + 1 } :=
      ⟨h.scopes, h.bindings, h.statement, congrArg (· + 1) h.depth, h.findCte?, h.avoids,
        h.cachedCte?, h.cteAnchor?, h.isCteInProgress⟩
    have hinner := ih hdeeper.pushCtes_nil
    rwa [Nat.add_right_comm, Nat.add_assoc] at hinner

end Context.Around

namespace Analysis

variable {env : Env} {c c₁ : Context} {q : Query} {set : ResultSet} {k limit : Nat}

/-- Named columns that come out of a query come out of the parentheses around it. -/
private theorem outcome_parenthesized (hnamed : ResultColumn.assignNames set.columns = set.columns)
    {n : Nat} (h : ((Nested.within k).query q).outcome env (c.inParentheses n) = (.ok set, c₁))
    (hd : c.depth + n ≤ env.config.maxNestingDepth) :
    ∃ set' c', ((Nested.within (k + n)).query (q.parenthesized n)).outcome env c = (.ok set', c') ∧
      set'.columns = set.columns := by
  induction n generalizing c with
  | zero => exact ⟨set, c₁, h, rfl⟩
  | succ n ih =>
    have hd' : c.depth + 1 + n ≤ env.config.maxNestingDepth := by omega
    obtain ⟨inner, c₂, hinner, hcolumns⟩ :=
      ih (c := { c with depth := c.depth + 1 }.pushCtes []) h hd'
    have hbody : ((Body.nested (q.parenthesized n)).project (Nested.within (k + n))).outcome env
        (c.inside (q.parenthesized (n + 1))) =
          (.ok ⟨inner.columns, inner.hasWildcardProjection⟩, c₂) :=
      outcome_bind_of_ok hinner
    refine ⟨_, _, outcome_query_eq_ok.2 ⟨by omega, _, _, hbody, rfl, rfl⟩, ?_⟩
    rw [Query.columns_resultOf, hcolumns, hnamed]

private theorem columns_parenthesized
    (h : ((c.depthWithin limit).nested.query q).outcome (env.limited limit) c = (.ok set, c₁))
    (n : Nat) :
    UnlessTooDeep (fun set' => set'.columns = set.columns) fun limit =>
      (((c.depthWithin limit).nested.query (q.parenthesized n)).outcome
        (env.limited limit) c).1 := by
  -- The query comes to the same inside the parentheses, which it cannot see, under a limit that
  -- allows for them.
  obtain ⟨name, havoids⟩ := Query.exists_avoids (q :: c.cteFrames.flatten.map (·.query))
  have haround : c.Around name n (c.inParentheses n) := by
    have hself : c.Around name 0 c :=
      .self fun cte hm => havoids _ (List.mem_cons_of_mem _ (List.mem_map_of_mem hm))
    simpa only [Nat.zero_add] using hself.inParentheses n
  have hq :=
    (Weakens.within name n (env.limited limit) (limit - c.depth) q (havoids q List.mem_cons_self)).1
  obtain ⟨c₂, hinner, -⟩ := hq c _ haround set c₁ h
  obtain ⟨hd, hnamed⟩ : c.depth < limit ∧ ResultColumn.assignNames set.columns = set.columns := by
    change ((Nested.within (limit - c.depth)).query q).outcome (env.limited limit) c = _ at h
    cases hk : limit - c.depth with
    | zero =>
      rw [hk] at h
      cases h
    | succ k =>
      rw [hk] at h
      obtain ⟨hd, p, -, -, rfl, -⟩ := outcome_query_eq_ok.1 h
      refine ⟨hd, ?_⟩
      rw [Query.columns_resultOf, ResultColumn.assignNames_assignNames]
  have hlimit : c.depth + n ≤ (env.limited (limit + n)).config.maxNestingDepth :=
    Nat.add_le_add_right hd.le n
  obtain ⟨set', c', hrun, hcolumns⟩ : ∃ set' c',
      ((Nested.within (limit - c.depth + n)).query (q.parenthesized n)).outcome
        (env.limited (limit + n)) c =
        (.ok set', c') ∧ set'.columns = set.columns := outcome_parenthesized hnamed hinner hlimit
  have hroom : limit - c.depth + n = limit + n - c.depth := by omega
  rw [hroom] at hrun
  have hok :
      (((c.depthWithin (limit + n)).nested.query (q.parenthesized n)).outcome
        (env.limited (limit + n)) c).1 =
      .ok set' := congrArg Prod.fst hrun
  refine UnlessTooDeep.of_ok (fun {low high} hl => ?_) hok hcolumns
  have hsame := (StoppedOrSame.within (env.fitsIn_limited hl) (Nat.sub_le_sub_right hl c.depth)).1
      (q.parenthesized n) c
  exact hsame.imp_right (congrArg Prod.fst)

/-- Columns that have names keep them when they are named again. So every query has the same columns
in however many parentheses, unless these are too many for the limit. -/
theorem names_kept_in_parentheses :
    (∀ cs, ResultColumn.assignNames (ResultColumn.assignNames cs) = ResultColumn.assignNames cs) ∧
      ∀ (env : Env) (c : Context) (q : Query), ∃ columns, ∀ n,
        UnlessTooDeep (fun set => set.columns = columns) fun limit =>
          (((c.depthWithin limit).nested.query (q.parenthesized n)).outcome
            (env.limited limit) c).1 := by
  refine ⟨ResultColumn.assignNames_assignNames, fun env c q => ?_⟩
  obtain ⟨limit, hquery, -⟩ := (eventually_succeedsAt_nested env c.place q).exists
  obtain ⟨set, c₁, h, -⟩ := hquery c rfl
  exact ⟨set.columns, columns_parenthesized h⟩

end Analysis

end ResultShape
