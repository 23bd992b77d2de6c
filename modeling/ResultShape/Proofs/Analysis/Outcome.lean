import ResultShape.Analysis.Query
/-! Outcomes of actions: what each way to put actions together comes to, in
an environment and a context. -/
namespace ResultShape.Analysis

variable {α β : Type} (x : Analysis α) (f : α → Analysis β) (env : Env) (c : Context)

theorem outcome_read : (read : Analysis Env).outcome env c = (.ok env, c) := rfl

theorem outcome_get : (get : Analysis Context).outcome env c = (.ok c, c) := rfl

/-- An error of the first action is the error of both, and the second one never runs. -/
theorem outcome_bind :
    (x >>= f).outcome env c =
      match x.outcome env c with
      | (.ok a, c') => (f a).outcome env c'
      | (.error e, c') => (.error e, c') := by
  have h : (x >>= f).outcome env c = (fun p : Except AnalysisError α × Context =>
    ExceptT.bindCont (fun a => f a env) p.1 p.2) (x.outcome env c) := rfl
  rw [h]
  rcases x.outcome env c with ⟨_ | _, c'⟩ <;> rfl

variable {x f env c}

theorem outcome_bind_of_ok {a : α} {c' : Context} (h : x.outcome env c = (.ok a, c')) :
    (x >>= f).outcome env c = (f a).outcome env c' := by rw [outcome_bind, h]

theorem outcome_bind_eq_ok {b : β} {c' : Context} :
    (x >>= f).outcome env c = (.ok b, c') ↔
      ∃ a c₁, x.outcome env c = (.ok a, c₁) ∧ (f a).outcome env c₁ = (.ok b, c') := by
  rw [outcome_bind]
  rcases x.outcome env c with ⟨_ | a, c₁⟩
  · simp
  · constructor
    · exact fun h => ⟨_, _, rfl, h⟩
    · rintro ⟨_, _, h, hf⟩
      cases h
      exact hf

theorem outcome_map_eq_ok {g : α → β} {b : β} {c' : Context} :
    (g <$> x).outcome env c = (.ok b, c') ↔ ∃ a, x.outcome env c = (.ok a, c') ∧ g a = b := by
  rw [← bind_pure_comp, outcome_bind_eq_ok]
  constructor
  · rintro ⟨a, c₁, hx, hb⟩
    cases hb
    exact ⟨a, hx, rfl⟩
  · rintro ⟨a, hx, rfl⟩
    exact ⟨a, c', hx, rfl⟩

/-- A transitive relation that each of two actions keeps to is kept to by both in turn,
also when the first one fails. -/
theorem context_bind {S : Context → Context → Prop} (hS : ∀ {c₁ c₂ c₃}, S c₁ c₂ → S c₂ c₃ → S c₁ c₃)
    (hx : ∀ c, S c (x.outcome env c).2) (hf : ∀ a c, S c ((f a).outcome env c).2) (c : Context) :
    S c ((x >>= f).outcome env c).2 := by
  have h := hx c
  rw [outcome_bind]
  generalize x.outcome env c = p at h ⊢
  rcases p with ⟨_ | a, c'⟩
  · exact h
  · exact hS h (hf a c')

variable (x env c)

theorem outcome_between (before after : Context → Context) :
    (between before after x).outcome env c =
      ((x.outcome env (before c)).1, after (x.outcome env (before c)).2) := rfl

theorem outcome_between_eq_ok {x : Analysis α} {env : Env} {c c' : Context}
    {before after : Context → Context} {a : α} :
    (between before after x).outcome env c = (.ok a, c') ↔
      ∃ c₁, x.outcome env (before c) = (.ok a, c₁) ∧ after c₁ = c' := by
  rw [outcome_between]
  constructor
  · intro h
    obtain ⟨ha, hc⟩ := Prod.mk.inj h
    exact ⟨_, Prod.ext ha rfl, hc⟩
  · rintro ⟨c₁, hx, rfl⟩
    rw [hx]

theorem outcome_computingCte (name : String) :
    (computingCte name x).outcome env c =
      (between (fun c => { c.beginCte name with scopes := [] })
        (fun c' => { c'.endCte name with scopes := c.scopes }) x).outcome env c := rfl

theorem outcome_fromScopes (ask : Catalog → ScopeStack → α × ScopeStack) :
    (fromScopes ask).outcome env c =
      (.ok (ask env.catalog c.scopes).1, { c with scopes := (ask env.catalog c.scopes).2 }) := rfl

/-- One more query is open while the action runs; at the limit it does not run. -/
theorem outcome_opening :
    (opening x).outcome env c =
      if c.depth < env.config.maxNestingDepth then
        (between (fun c => { c with depth := c.depth + 1 }) .leave x).outcome env c
      else (.error (.nestingTooDeep env.config.maxNestingDepth), c) := by
  unfold opening Depth.enter Context.depthWithin
  rw [outcome_bind_of_ok (outcome_get env c), outcome_bind_of_ok (outcome_read env c)]
  by_cases h : c.depth < env.config.maxNestingDepth
  · rw [if_pos h, if_pos h]
    rfl
  · rw [if_neg h, if_neg h]
    rfl

variable {x env c}

theorem outcome_of_opening_eq_ok {a : α} {c' : Context}
    (h : (opening x).outcome env c = (.ok a, c')) :
    ∃ c₁, x.outcome env { c with depth := c.depth + 1 } = (.ok a, c₁) := by
  rw [outcome_opening] at h
  split at h
  · obtain ⟨c₁, hx, -⟩ := outcome_between_eq_ok.1 h
    exact ⟨c₁, hx⟩
  · cases h

/-- Whatever the action returns, in whichever context, has the property. -/
def Returns (P : α → Prop) (x : Analysis α) : Prop :=
  ∀ env c a c', x.outcome env c = (.ok a, c') → P a

namespace Returns

variable {P : α → Prop} {x : Analysis α}

theorem imp {P' : α → Prop} (h : Returns P x) (hp : ∀ a, P a → P' a) : Returns P' x :=
  fun env c a c' ha => hp a (h env c a c' ha)

theorem pure {a : α} (h : P a) : Returns P (Pure.pure a) := by
  intro env c b c' hb
  cases hb
  exact h

theorem throw (e : AnalysisError) : Returns P (MonadExcept.throw e) := by
  intro env c a c' ha
  cases ha

theorem bind {y : Analysis β} {f : β → Analysis α} (hf : ∀ b, Returns P (f b)) :
    Returns P (y >>= f) := by
  intro env c a c' ha
  obtain ⟨b, c₁, -, hb⟩ := outcome_bind_eq_ok.1 ha
  exact hf b env c₁ a c' hb

theorem andThen {Q : β → Prop} {y : Analysis β} {f : β → Analysis α} (hy : Returns Q y)
    (hf : ∀ b, Q b → Returns P (f b)) : Returns P (y >>= f) := by
  intro env c a c' ha
  obtain ⟨b, c₁, hb, ha⟩ := outcome_bind_eq_ok.1 ha
  exact hf b (hy env c b c₁ hb) env c₁ a c' ha

theorem fromScopes {ask : Catalog → ScopeStack → α × ScopeStack}
    (h : ∀ catalog stack, P (ask catalog stack).1) :
    Returns P (fromScopes ask) := by
  intro env c a c' ha
  rw [outcome_fromScopes] at ha
  cases ha
  exact h env.catalog c.scopes

theorem between (hx : Returns P x) (before after : Context → Context) :
    Returns P (between before after x) := by
  intro env c a c' ha
  obtain ⟨c₁, ho, -⟩ := outcome_between_eq_ok.1 ha
  exact hx env (before c) a c₁ ho

theorem opening (hx : Returns P x) : Returns P (opening x) := by
  intro env c a c' ha
  obtain ⟨c₁, ho⟩ := outcome_of_opening_eq_ok ha
  exact hx env _ a c₁ ho

end Returns

end ResultShape.Analysis
