import ResultShape.Proofs.Analysis.Replay
/-! First reference: the columns that the first reference to a CTE in a statement comes to are those
of every later reference to a CTE of that name, whatever `WITH` clause this one is defined in. -/
namespace ResultShape

/-- The analysis of a statement goes on from the first context to the second one. -/
inductive Context.GoesOn (env : Env) (c : Context) : Context → Prop where
  | refl : GoesOn env c c
  | source {c₁ c₂ : Context} {k : Nat} {range : Nat × Nat} (h : GoesOn env c c₁) (s : Source)
    (hs : (s.register (Nested.within k)).outcome env c₁ = (.ok range, c₂)) : GoesOn env c c₂
  | expr {c₁ c₂ : Context} {k : Nat} {column : ResultColumn} (h : GoesOn env c c₁) (e : Expr)
    (he : (e.resolve (Nested.within k)).outcome env c₁ = (.ok column, c₂)) : GoesOn env c c₂
  | query {c₁ c₂ : Context} {k : Nat} {set : ResultSet} (h : GoesOn env c c₁) (q : Query)
    (hq : ((Nested.within k).query q).outcome env c₁ = (.ok set, c₂)) : GoesOn env c c₂
  | step {c₁ c₂ : Context} (h : GoesOn env c c₁) (hs : Context.Step c₁ c₂)
    (hstatement : c₂.statement = c₁.statement) (hcache : c₂.cteCache = c₁.cteCache) :
      GoesOn env c c₂

namespace Analysis

open Context

variable {env : Env} {c c₁ c₂ : Context} {m : ColumnMap}

/-- What is kept of a CTE is kept to the end of the statement. -/
private theorem kept_of_goesOn (ha : c₁.Anchored) {name : String} (hm : c₁.cachedCte? name = some m)
    (h : c₁.GoesOn env c₂) : c₂.Anchored ∧ c₂.cachedCte? name = some m := by
  have run {α : Type} {x : Analysis α} {a : α} {c c' : Context} (hx : Replays env x x)
      (h : x.outcome env c = (.ok a, c')) (hc : c.Anchored ∧ c.cachedCte? name = some m) :
      c'.Anchored ∧ c'.cachedCte? name = some m := by
    obtain ⟨hkept, hgrows, -⟩ := hx c a c' hc.1 h
    refine ⟨hkept.anchored, ?_⟩
    rw [cachedCte?, hkept.statement]
    exact hgrows.kept hc.2
  -- What is resolved on the way replays, so it only adds to what is kept.
  induction h with
  | refl => exact ⟨ha, hm⟩
  | source _ s hs ih => exact run (.register env _ s) hs ih
  | expr _ e he ih => exact run (.expr env _ e) he ih
  | query _ q hq ih => exact run (Replays.within env _ q).1 hq ih
  | step _ hs hstatement hcache ih =>
    refine ⟨hs.anchored ih.1, ?_⟩
    rw [cachedCte?, hstatement, hcache]
    exact ih.2

/-- A reference that is not made while the CTE is being computed leaves the columns of
the CTE for later references. -/
private theorem cached_of_cteColumns {k : Nat} {cte : Cte} (hp : c.isCteInProgress cte.name = false)
    (h : (cteColumns (Nested.within k) cte).outcome env c = (.ok m, c₁)) :
    c₁.cachedCte? cte.name = some m := by
  rcases outcome_cteColumns_eq_ok.1 h with ⟨hcached, rfl⟩ | ⟨-, hin, -⟩ | ⟨-, -, c₂, -, rfl⟩
  · exact hcached
  · cases hp.symm.trans hin
  · rw [cachedCte?, computed, cacheCte, Keyed.get?_insert, if_pos rfl]

/-- After a reference to a CTE, made while the CTE is not being computed, each reference in the rest
of the statement to a CTE of that name gets the same columns, even if another query defines it, and
however deep the reference is. -/
theorem first_reference_decides {cte cte' : Cte} {k : Nat} (hreachable : c.Reachable)
    (hp : c.isCteInProgress cte.name = false)
    (h : (cteColumns (Nested.within k) cte).outcome env c = (.ok m, c₁))
    (hlater : c₁.GoesOn env c₂) (hname : Text.same cte'.name cte.name = true) (k' : Nat) :
    (cteColumns (Nested.within k') cte').outcome env c₂ = (.ok m, c₂) := by
  have ha : c₁.Anchored := ((Replays.columns env k cte) c m c₁ hreachable.anchored h).1.anchored
  obtain ⟨-, hcached⟩ := kept_of_goesOn ha (cached_of_cteColumns hp h) hlater
  refine outcome_cteColumns_eq_ok.2 (.inl ⟨?_, rfl⟩)
  rw [cachedCte?, Text.same_iff.1 hname]
  exact hcached

end Analysis

/-- `SELECT value AS name`. -/
private def selectValue (value : Literal) (name : String) : Query :=
  ⟨.select ⟨false, none, [.expr (.literal value) (some name)], none, [], none, [], none⟩, [],
    [], none, none⟩

/-- `WITH … SELECT * FROM …`. -/
private def selectStar (ctes : List Cte) (sources : List Source) : Query :=
  ⟨.select ⟨false, none, [.star none], none, sources, none, [], none⟩, ctes, [], none, none⟩

/-- `name AS (SELECT 1 AS x)`. -/
def numberCte (name : String) : Cte := ⟨name, [], selectValue (.int 1) "x"⟩

/-- `name AS (SELECT 's' AS y)`. -/
def textCte (name : String) : Cte := ⟨name, [], selectValue (.string "s" false) "y"⟩

open Analysis

/-- After a reference to `a AS (SELECT 1 AS x)`, one under `WITH a AS (SELECT 's'
AS y)` gets the column `x`. -/
theorem first_reference_decides_shadowed :
    ∃ m c, (cteColumns (Nested.within 1) (numberCte "a")).outcome ⟨.builtinOnly {}, {}⟩
        (({} : Context).pushCtes [numberCte "a"]) = (.ok m, c) ∧ m.values.map (·.name) = ["x"] ∧
      (cteColumns (Nested.within 1) (textCte "a")).outcome ⟨.builtinOnly {}, {}⟩
        (c.pushCtes [textCte "a"]) =
        (.ok m, c.pushCtes [textCte "a"]) := by
  let c : Context := ({} : Context).pushCtes [numberCte "a"]
  let p := (cteColumns (Nested.within 1) (numberCte "a")).outcome ⟨.builtinOnly {}, {}⟩ c
  have hreachable : c.Reachable := .step .start (.pushCtes {} _)
  have hp : p = (.ok (p.1.toOption.getD default), p.2) := by rfl
  refine ⟨_, _, hp, by rfl, ?_⟩
  exact first_reference_decides hreachable rfl hp
    (.step .refl (.pushCtes _ _) rfl rfl) (by decide) 1

/-- The names of the columns of a query that is a statement of its own, where no object is known. -/
def namesOf (q : Query) : Option (List String) :=
  (((Nested.within 4).query q).outcome ⟨.builtinOnly {}, {}⟩ {}).1.toOption.map (·.columnNames)

/-- A definition of `a` inside another one is not seen once that is referred to, nor is the outer
one once the inner one is referred to. And a definition refers to `b` as it is defined around the
reference to it, not around the definition. -/
theorem shadowing_definition_unseen :
    let inner := selectStar [textCte "a"] [.named (.bare "a") none]
    let derived : Source := .derived inner "d" []
    let all : Cte := ⟨"a", [], selectStar [] [.named (.bare "b") none]⟩
    namesOf inner = some ["y"] ∧
      namesOf (selectStar [numberCte "a"] [.named (.bare "a") none, derived]) = some ["x", "d_x"] ∧
      namesOf (selectStar [numberCte "a"] [derived, .named (.bare "a") none]) = some ["y", "a_y"] ∧
      namesOf (selectStar [numberCte "b", all] [.named (.bare "a") none]) = some ["x"] ∧
      namesOf (selectStar [numberCte "b", all]
        [.derived (selectStar [textCte "b"] [.named (.bare "a") none]) "d" []]) = some ["y"] := by
  decide +kernel

end ResultShape
