import ResultShape.Proofs.Alike.Same
/-! Parentheses: queries that differ only in the parentheses around expressions
come to the same result set. -/
namespace ResultShape

/-- Drops the parentheses around an expression, and those around its parts with them. -/
def Rewriting.unparenthesizing : Rewriting := { expr := Expr.unnested }

theorem Rewriting.faithful_unparenthesizing : unparenthesizing.Faithful where
  head := Expr.head_unnested
  literalHint := Expr.literalHint_unnested
  value_literal? _ := rfl
  value_isAggregate _ := rfl
  name _ := rfl
  meaning := Expr.meaning_unnested
  resolve_value _ _ := rfl

namespace Query

/-- The query without parentheses around any expression in it. -/
def unparenthesized (q : Query) : Query := q.rewrite .unparenthesizing

/-- Queries that differ only in parentheses come to the same result set or to the
same error, in every context. -/
theorem outcome_eq_of_unparenthesized_eq (env : Env) (c : Context) {q q' : Query}
    (h : q.unparenthesized = q'.unparenthesized) :
    (((c.depthWithin env.config.maxNestingDepth).nested.query q).outcome env c).1 =
      (((c.depthWithin env.config.maxNestingDepth).nested.query q').outcome env c).1 := by
  have hρ := Rewriting.faithful_unparenthesizing
  rw [Context.depthWithin, Depth.nested, ← q.outcome_rewrite hρ, ← q'.outcome_rewrite hρ]
  exact congrArg (fun r => (((Nested.within _).query r).outcome env _).1) h

/-- `SELECT TOP 1 IIF(0, NULL, 2) AS i, JSON_QUERY('[' + STRING_AGG(2, ',') + ']') AS a FOR JSON
PATH, WITHOUT_ARRAY_WRAPPER`, with the given wrapping around every expression. -/
private def wrapped (wrap : Expr → Expr) : Query :=
  let text (s : String) : Expr := wrap (.literal (.string s false))
  let items := wrap (.call (.bare "STRING_AGG") [wrap (.literal (.int 2)), text ","] false false)
  let array := wrap (.binary .add (wrap (.binary .add (text "[") items)) (text "]"))
  let columns : List Item := [
    .expr
      (wrap (.iif (wrap (.literal (.int 0))) (wrap (.literal .null)) (wrap (.literal (.int 2)))))
      (some "i"),
    .expr (wrap (.call (.bare "JSON_QUERY") [array] false false)) (some "a")]
  let top : Top := ⟨wrap (.literal (.int 1)), false, false⟩
  ⟨.select ⟨false, some top, columns, none, [], none, [], none⟩, [], [],
    some (.json .path [.withoutArrayWrapper]), none⟩

theorem outcome_eq_of_unparenthesized_eq_wrapped :
    let env : Env := ⟨.builtinOnly {}, {}⟩
    let run (q : Query) :=
      (((({} : Context).depthWithin env.config.maxNestingDepth).nested.query q).outcome env {}).1
    (wrapped .paren).unparenthesized = (wrapped id).unparenthesized ∧
      (run (wrapped id)).map
        (fun set => (set.columns.map (·.sqlType), set.jsonSingleRowGuaranteed)) =
        .ok ([some .int, some .nvarcharMax], some true) ∧
      run (wrapped .paren) = run (wrapped id) :=
  ⟨rfl, rfl, outcome_eq_of_unparenthesized_eq _ _ rfl⟩

end Query

end ResultShape
