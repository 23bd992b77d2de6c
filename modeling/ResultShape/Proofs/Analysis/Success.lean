import ResultShape.Proofs.Analysis.Outcome
/-! Successful runs: what the steps of a query, and of finding the columns of a CTE, came to if the
whole came to an answer, and in which contexts they ran. -/
namespace ResultShape

/-- The context in which the body of a query is projected. -/
def Context.inside (q : Query) (c : Context) : Context :=
  { c with depth := c.depth + 1 }.pushCtes q.ctes

/-- The context in which the definition of a CTE is computed. -/
def Context.computing (name : String) (c : Context) : Context :=
  { c.beginCte name with scopes := [] }

theorem Context.computing_eq {name : String} {c : Context} (h : c.isCteInProgress name = false) :
    c.computing name =
      { c with scopes := [], ctesInProgress := Text.fold name :: c.ctesInProgress } := by
  rw [computing, beginCte, h]
  rfl

theorem Context.isCteInProgress_computing {name : String} {c : Context}
    (h : c.isCteInProgress name = false) : (c.computing name).isCteInProgress name = true := by
  rw [computing_eq h]
  simp [isCteInProgress]

theorem Context.findCte?_pushCtes (ctes : List Cte) (n : String) (c : Context) :
    (c.pushCtes ctes).findCte? n =
      (ctes.find? fun cte => Text.same cte.name n).or (c.findCte? n) := by
  simp only [findCte?, pushCtes, List.flatten_cons, List.find?_append]

/-- The definition that is found for a name may be spelt differently. -/
theorem Context.same_of_findCte? {c : Context} {n : String} {cte : Cte}
    (h : c.findCte? n = some cte) :
    Text.same cte.name n = true := List.find?_some (p := fun cte : Cte => Text.same cte.name n) h

/-- What a CTE shows to itself is nothing to one of another name. -/
theorem Context.cteAnchor?_setCteAnchor {n name : String} (hn : Text.same n name = false)
    (m : ColumnMap) (c : Context) : (c.setCteAnchor name m).cteAnchor? n = c.cteAnchor? n := by
  have hne : Text.fold name ≠ Text.fold n :=
    fun he => Bool.eq_false_iff.1 hn (Text.same_iff.2 he.symm)
  simp only [cteAnchor?, setCteAnchor, Keyed.get?_insert, if_neg hne]

/-- The context after the columns of a CTE are computed that a reference in
the first context asked for. -/
def Context.computed (name : String) (m : ColumnMap) (c c' : Context) : Context :=
  { c'.endCte name with scopes := c.scopes }.cacheCte name m

/-- The result set of a query from what its body projects. -/
def Query.resultOf (config : Config) (q : Query) (p : Projection) : ResultSet :=
  (q.forJson? config).elim p.resultSet (p.resultSet.asDocument q)

theorem Query.columns_resultOf (config : Config) (q : Query) (p : Projection) :
    (q.resultOf config p).columns = ResultColumn.assignNames p.columns := by
  unfold Query.resultOf
  cases q.forJson? config <;> rfl

/-- Where both sides of a set operation have a column, its nullability is put together from both. -/
theorem Projection.isNullable_union (left right : Projection) (i : Nat) :
    (left.union right).columns[i]?.bind (·.isNullable) = left.columns[i]?.bind fun c =>
      right.columns[i]?.elim c.isNullable fun other =>
        eitherNullable c.isNullable other.isNullable := by
  unfold Projection.union
  rw [List.getElem?_mapIdx, Option.bind_map]
  congr 1
  funext c
  cases right.columns[i]? <;> rfl

namespace Analysis

variable {α : Type} {x : Analysis α} {env : Env} {k : Nat} {n : Nested} {q : Query} {cte : Cte}
  {c c' : Context}

theorem outcome_opening_eq_ok {a : α} :
    (opening x).outcome env c = (.ok a, c') ↔
      c.depth < env.config.maxNestingDepth ∧
        ∃ c₁, x.outcome env { c with depth := c.depth + 1 } = (.ok a, c₁) ∧ c₁.leave = c' := by
  rw [outcome_opening]
  split
  · rename_i h
    rw [outcome_between_eq_ok]
    exact ⟨fun hx => ⟨h, hx⟩, fun hx => hx.2⟩
  · rename_i h
    constructor
    · intro hx
      cases hx
    · exact fun hx => absurd hx.1 h

theorem outcome_query_eq_ok {set : ResultSet} :
    ((Nested.within (k + 1)).query q).outcome env c = (.ok set, c') ↔
      c.depth < env.config.maxNestingDepth ∧
        ∃ p c₁, (q.body.project (Nested.within k)).outcome env (c.inside q) = (.ok p, c₁) ∧
          q.resultOf env.config p = set ∧ c₁.popCtes.leave = c' := by
  refine outcome_opening_eq_ok.trans (and_congr_right fun _ => ?_)
  constructor
  · rintro ⟨c₁, h, rfl⟩
    obtain ⟨p, c₂, hp, h⟩ := outcome_bind_eq_ok.1 h
    obtain ⟨c₃, hbody, rfl⟩ := outcome_between_eq_ok.1 hp
    cases h
    exact ⟨p, c₃, hbody, rfl, rfl⟩
  · rintro ⟨p, c₁, hp, rfl, rfl⟩
    refine ⟨c₁.popCtes, outcome_bind_eq_ok.2 ⟨p, c₁.popCtes, ?_, rfl⟩, rfl⟩
    exact outcome_between_eq_ok.2 ⟨c₁, hp, rfl⟩

theorem outcome_anchor_eq_ok {columns : List ResultColumn} :
    ((Nested.within (k + 1)).anchor q).outcome env c = (.ok columns, c') ↔
      c.depth < env.config.maxNestingDepth ∧
        ∃ p c₁, (q.body.leftmost.project (Nested.within k)).outcome env
          { c with depth := c.depth + 1 } = (.ok p, c₁) ∧
          ResultColumn.assignNames p.columns = columns ∧ c₁.leave = c' := by
  refine outcome_opening_eq_ok.trans (and_congr_right fun _ => ?_)
  constructor
  · rintro ⟨c₁, h, rfl⟩
    obtain ⟨p, c₂, hp, h⟩ := outcome_bind_eq_ok.1 h
    cases h
    exact ⟨p, _, hp, rfl, rfl⟩
  · rintro ⟨p, c₁, hp, rfl, rfl⟩
    exact ⟨c₁, outcome_bind_eq_ok.2 ⟨p, c₁, hp, rfl⟩, rfl⟩

/-- The context in which the query of a definition is resolved: for a set operation
that after its leftmost branch. -/
inductive Anchors (n : Nested) (env : Env) (cte : Cte) : Context → Context → Prop where
  | branch {c c₁ : Context} {anchor : List ResultColumn} (hb : cte.query.body.isSetOp = true)
    (h : (n.anchor cte.query).outcome env c = (.ok anchor, c₁)) :
    Anchors n env cte c (c₁.setCteAnchor cte.name (.ofColumns anchor cte.columns))
  | none {c : Context} (hb : cte.query.body.isSetOp = false) : Anchors n env cte c c

theorem outcome_computeCte_eq_ok {m : ColumnMap} :
    (computeCte n cte).outcome env c = (.ok m, c') ↔
      ∃ c₁ set, Anchors n env cte c c₁ ∧ (n.query cte.query).outcome env c₁ = (.ok set, c') ∧
        .ofColumns set.columns cte.columns = m := by
  have hset (c₁ : Context) : (do
      let set ← n.query cte.query
      return ColumnMap.ofColumns set.columns cte.columns : Analysis ColumnMap).outcome env c₁ =
        (.ok m, c') ↔
        ∃ set, (n.query cte.query).outcome env c₁ = (.ok set, c') ∧
          .ofColumns set.columns cte.columns = m := by
    rw [bind_pure_comp, outcome_map_eq_ok]
  unfold computeCte
  dsimp only
  split
  · rename_i hb
    constructor
    · intro h
      obtain ⟨anchor, c₁, ha, h⟩ := outcome_bind_eq_ok.1 h
      obtain ⟨_, c₂, hs, h⟩ := outcome_bind_eq_ok.1 h
      cases hs
      obtain ⟨set, hq, hm⟩ := (hset _).1 h
      exact ⟨_, set, .branch hb ha, hq, hm⟩
    · rintro ⟨_, set, ha, hq, hm⟩
      cases ha with
      | branch hb ha =>
        exact outcome_bind_eq_ok.2
          ⟨_, _, ha, outcome_bind_eq_ok.2 ⟨_, _, rfl, (hset _).2 ⟨set, hq, hm⟩⟩⟩
      | none hn => rw [hb] at hn; cases hn
  · rename_i hb
    constructor
    · intro h
      obtain ⟨set, hq, hm⟩ := (hset _).1 h
      exact ⟨c, set, .none (by simpa using hb), hq, hm⟩
    · rintro ⟨_, set, ha, hq, hm⟩
      cases ha with
      | branch hn ha => exact absurd hn hb
      | none hn => exact (hset _).2 ⟨set, hq, hm⟩

/-- A reference gets the columns that are kept, else those that a CTE being computed shows to
itself, else those that the definition comes to now. -/
theorem outcome_cteColumns_eq_ok {m : ColumnMap} :
    (cteColumns n cte).outcome env c = (.ok m, c') ↔
      (c.cachedCte? cte.name = some m ∧ c = c') ∨
        (c.cachedCte? cte.name = none ∧ c.isCteInProgress cte.name = true ∧
          (c.cteAnchor? cte.name).getD .empty = m ∧ c = c') ∨
        (c.cachedCte? cte.name = none ∧ c.isCteInProgress cte.name = false ∧
          ∃ c₁, (computeCte n cte).outcome env (c.computing cte.name) = (.ok m, c₁) ∧
            c.computed cte.name m c₁ = c') := by
  unfold cteColumns
  rw [outcome_bind_of_ok (outcome_get env c)]
  cases hc : c.cachedCte? cte.name with
  | some columns =>
    constructor
    · intro h
      cases h
      exact .inl ⟨rfl, rfl⟩
    · rintro (⟨h, rfl⟩ | ⟨h, -⟩ | ⟨h, -⟩)
      · cases h
        rfl
      · cases h
      · cases h
  | none =>
    dsimp only
    cases hp : c.isCteInProgress cte.name with
    | true =>
      constructor
      · intro h
        cases h
        exact .inr (.inl ⟨rfl, rfl, rfl, rfl⟩)
      · rintro (⟨h, -⟩ | ⟨-, -, rfl, rfl⟩ | ⟨-, h, -⟩)
        · cases h
        · rfl
        · cases h
    | false =>
      constructor
      · intro h
        obtain ⟨columns, c₁, hx, h⟩ := outcome_bind_eq_ok.1 h
        cases h
        rw [outcome_computingCte] at hx
        obtain ⟨c₂, hm, rfl⟩ := outcome_between_eq_ok.1 hx
        exact .inr (.inr ⟨rfl, rfl, c₂, hm, rfl⟩)
      · rintro (⟨h, -⟩ | ⟨-, h, -⟩ | ⟨-, -, c₁, hm, rfl⟩)
        · cases h
        · cases h
        · refine outcome_bind_eq_ok.2 ⟨m, _, ?_, rfl⟩
          rw [outcome_computingCte]
          exact outcome_between_eq_ok.2 ⟨c₁, hm, rfl⟩

end Analysis

end ResultShape
