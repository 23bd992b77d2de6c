import ResultShape.Proofs.Analysis.Layers
import ResultShape.Proofs.Analysis.Outcome
/-! Limits: under a higher limit an analysis ends as it does under a lower one, unless the
lower one stops it. Of the settings, and of the catalog, nothing else makes a difference
than what an analysis asks for. -/
namespace ResultShape

/-- The same environment under another limit. -/
def Env.limited (env : Env) (limit : Nat) : Env :=
  { env with config := { env.config with maxNestingDepth := limit } }

/-- In the second environment all that an analysis asks for is as it is in the first one, and as
many queries or more may be open inside one another. -/
structure Env.FitsIn (env env' : Env) : Prop where
  catalog : env.catalog.AnswersLike env'.catalog
  defaultSchema : env.config.defaultSchema = env'.config.defaultSchema
  jsonTextFallback : env.config.jsonTextFallback = env'.config.jsonTextFallback
  limit : env.config.maxNestingDepth ≤ env'.config.maxNestingDepth

theorem Env.fitsIn_limited (env : Env) {low high : Nat} (h : low ≤ high) :
    (env.limited low).FitsIn (env.limited high) :=
  ⟨.refl _, rfl, rfl, h⟩

namespace Analysis

/-- From every context the limit of the first environment stops the first action, or the second one
ends the same in the second environment. -/
def StoppedOrSame (env env' : Env) ⦃α : Type⦄ (x y : Analysis α) : Prop :=
  ∀ c, (x.outcome env c).1 = .error (.nestingTooDeep env.config.maxNestingDepth) ∨
    x.outcome env c = y.outcome env' c

namespace StoppedOrSame

variable {env env' : Env} {α β : Type}

private theorem of_eq {x : Analysis α} (h : ∀ c, x.outcome env c = x.outcome env' c) :
    StoppedOrSame env env' x x :=
  fun c => .inr (h c)

private theorem bind {x y : Analysis α} {f g : α → Analysis β} (hx : StoppedOrSame env env' x y)
    (hf : ∀ a, StoppedOrSame env env' (f a) (g a)) : StoppedOrSame env env' (x >>= f)
    (y >>= g) := by
  intro c
  rw [outcome_bind, outcome_bind]
  rcases hx c with hs | he
  · obtain ⟨c', hx'⟩ :
        ∃ c', x.outcome env c = (.error (.nestingTooDeep env.config.maxNestingDepth), c') :=
      ⟨_, Prod.ext hs rfl⟩
    rw [hx']
    exact .inl rfl
  · rw [← he]
    rcases x.outcome env c with ⟨_ | a, c'⟩
    · exact .inr rfl
    · exact hf a c'

theorem congruence (h : env.FitsIn env') : Congruence (StoppedOrSame env env') where
  pure _ := of_eq fun _ => rfl
  bind := bind
  catalog {_ f g} hf hg c := by
    change ((f env.catalog).outcome env c).1 = _ ∨
      (f env.catalog).outcome env c = (g env'.catalog).outcome env' c
    rw [← hg h.catalog]
    exact hf env.catalog c
  defaultSchema := of_eq fun c =>
    congrArg (fun s => ((.ok s : Except AnalysisError String), c)) h.defaultSchema
  bindings := of_eq fun _ => rfl
  lookup ref := of_eq fun c => by rw [outcome_fromScopes, outcome_fromScopes, h.catalog.lookup_eq]
  expand qualifier := of_eq fun c => by
    rw [outcome_fromScopes, outcome_fromScopes, h.catalog.expand_eq]

theorem between {before after : Context → Context} {x y : Analysis α}
    (hx : StoppedOrSame env env' x y) :
    StoppedOrSame env env' (between before after x) (between before after y) := by
  intro c
  rw [outcome_between, outcome_between]
  rcases hx (before c) with hs | he
  · exact .inl hs
  · exact .inr (by rw [he])

theorem get {f g : Context → Analysis β} (hf : ∀ c, StoppedOrSame env env' (f c) (g c)) :
    StoppedOrSame env env' (MonadState.get >>= f) (MonadState.get >>= g) := by
  intro c
  rw [outcome_bind_of_ok (outcome_get _ c), outcome_bind_of_ok (outcome_get _ c)]
  exact hf c c

private theorem computingCte (name : String) {x y : Analysis α} (hx : StoppedOrSame env env' x y) :
    StoppedOrSame env env' (computingCte name x) (computingCte name y) := get fun _ => between hx

/-- What a block does in its scope and around it is the same relation here. -/
theorem layers (h : env.FitsIn env') :
    Layers (Both fun _ => True) (StoppedOrSame env env') (StoppedOrSame env env') where
  toInner := congruence h
  toOuter := congruence h
  innermost := Both.innermost_eq
  get hf := get fun c => hf c c ⟨rfl, trivial⟩
  addEntry _ _ := of_eq fun _ => rfl
  markSide isNullable _ := by cases isNullable <;> exact of_eq fun _ => rfl
  ofOuter hx := hx
  inScope := between

/-- Where the first limit leaves room for one more query, the second one does. -/
private theorem opening (h : env.FitsIn env') {x y : Analysis α} (hx : StoppedOrSame env env' x y) :
    StoppedOrSame env env' (opening x) (opening y) := by
  intro c
  rw [outcome_opening, outcome_opening]
  by_cases hl : c.depth < env.config.maxNestingDepth
  · rw [if_pos hl, if_pos (Nat.lt_of_lt_of_le hl h.limit)]
    exact between hx c
  · rw [if_neg hl]
    exact .inl rfl

private theorem withCtes (ctes : List Cte) {x y : Analysis α} (hx : StoppedOrSame env env' x y) :
    StoppedOrSame env env' (withCtes ctes x) (withCtes ctes y) := between hx

section

variable (h : env.FitsIn env') {n n' : Nested}

include h

/-- The columns of CTEs are found alike if queries are resolved alike. -/
theorem ctesRelated (hq : ∀ q, StoppedOrSame env env' (n.query q) (n'.query q))
    (ha : ∀ q, StoppedOrSame env env' (n.anchor q) (n'.anchor q)) :
    CtesRelated (Both fun _ => True) (fun _ => True) (StoppedOrSame env env') n n' :=
  (layers h).ctesRelated (fun _ _ => of_eq fun _ => rfl) fun _ _ _ cte _ _ _ _ =>
    computingCte cte.name
    ((congruence h).computeCte (fun _ => of_eq fun _ => rfl) (ha cte.query) (hq cte.query))

/-- The options of a `FOR JSON` clause depend neither on the limit nor on the schemas. -/
private theorem resolveWith (hq : ∀ q, StoppedOrSame env env' (n.query q) (n'.query q))
    (ha : ∀ q, StoppedOrSame env env' (n.anchor q) (n'.anchor q)) (q : Query) :
    StoppedOrSame env env' (q.resolveWith n) (q.resolveWith n') := by
  have hb := (layers h).body (ctesRelated h hq ha) q.body (fun _ _ => trivial) fun r _ => hq r
  have hoptions : q.forJson? env.config = q.forJson? env'.config := by
    rw [Query.forJson?, Query.forJson?, h.jsonTextFallback]
  refine bind (withCtes q.ctes hb) fun p => of_eq fun c => ?_
  let ended (forJson? : Option ForJson) : Except AnalysisError ResultSet × Context :=
    (.ok (forJson?.elim p.resultSet (p.resultSet.asDocument q)), c)
  exact congrArg ended hoptions

private theorem anchorWith (hq : ∀ q, StoppedOrSame env env' (n.query q) (n'.query q))
    (ha : ∀ q, StoppedOrSame env env' (n.anchor q) (n'.anchor q)) (q : Query) :
    StoppedOrSame env env' (q.anchorWith n) (q.anchorWith n') :=
  bind ((layers h).body (ctesRelated h hq ha) q.body.leftmost (fun _ _ => trivial) fun r _ => hq r)
    fun _ => (congruence h).pure _

/-- With room for more open queries, and under a higher limit, queries are
resolved as with less room. -/
theorem within {room room' : Nat} (hroom : room ≤ room') :
    (∀ q, StoppedOrSame env env' ((Nested.within room).query q) ((Nested.within room').query q)) ∧
      ∀ q, StoppedOrSame env env' ((Nested.within room).anchor q)
        ((Nested.within room').anchor q) := by
  induction room generalizing room' with
  | zero => exact ⟨fun _ _ => .inl rfl, fun _ _ => .inl rfl⟩
  | succ room ih =>
    obtain ⟨room', rfl⟩ : ∃ m, room' = m + 1 := ⟨room' - 1, by omega⟩
    obtain ⟨hq, ha⟩ := ih (Nat.le_of_succ_le_succ hroom)
    exact ⟨fun q => opening h (resolveWith h hq ha q), fun q => opening h (anchorWith h hq ha q)⟩

end

end StoppedOrSame

end Analysis

end ResultShape
