import ResultShape.Analysis.Routine
import ResultShape.Proofs.Analysis.Outcome
/-! Runs of walks: what walking on comes to, and what becomes of a question. -/
namespace ResultShape.Walk

variable {α β : Type} {x : Walk α} {g : α → Walk β} {env : Env} {f f' : Findings}

theorem run_bind_of_ok {a : α} (h : x env f = .ok (a, f')) : (x >>= g) env f = g a env f' := by
  change (x env f >>= fun p => g p.1 env p.2) = _
  rw [h]
  rfl

theorem run_bind_of_error {e : AnalysisError} (h : x env f = .error e) :
    (x >>= g) env f = .error e := by
  change (x env f >>= fun p => g p.1 env p.2) = _
  rw [h]
  rfl

theorem run_bind_eq_ok {b : β} :
    (x >>= g) env f = .ok (b, f') ↔ ∃ a f₁, x env f = .ok (a, f₁) ∧ g a env f₁ = .ok (b, f') := by
  cases hx : x env f with
  | error e => simp [run_bind_of_error hx]
  | ok p =>
    obtain ⟨a, f₁⟩ := p
    rw [run_bind_of_ok hx]
    constructor
    · exact fun h => ⟨a, f₁, rfl, h⟩
    · rintro ⟨_, _, h, hg⟩
      cases h
      exact hg

theorem run_bind_congr {y : Walk α} {k : α → Walk β} (h : x env f = y env f)
    (hk : ∀ a f', x env f = .ok (a, f') → g a env f' = k a env f') :
    (x >>= g) env f = (y >>= k) env f := by
  cases hx : x env f with
  | error e => rw [run_bind_of_error hx, run_bind_of_error (h.symm.trans hx)]
  | ok p => rw [run_bind_of_ok hx, run_bind_of_ok (h.symm.trans hx), hk p.1 p.2 hx]

/-- An error of what is asked ends the walk; an answer comes with the context that it leaves. -/
def goOn (f : Findings) (p : Except AnalysisError α × Context) :
    Except AnalysisError (α × Findings) :=
  p.1.map fun a => (a, { f with context := p.2 })

theorem run_ask (x : Nested → Analysis α) (env : Env) (f : Findings) :
    ask x env f =
      goOn f
        ((x (f.context.depthWithin env.config.maxNestingDepth).nested).outcome env f.context) := by
  change analyze (x (f.context.depthWithin env.config.maxNestingDepth).nested) env f = _
  unfold analyze
  rcases (x (f.context.depthWithin env.config.maxNestingDepth).nested).outcome env
    f.context with ⟨_ | _, _⟩ <;> rfl

theorem run_ask_eq_ok {x : Nested → Analysis α} {a : α} :
    ask x env f = .ok (a, f') ↔
      ∃ c, (x (f.context.depthWithin env.config.maxNestingDepth).nested).outcome env f.context =
        (.ok a, c) ∧
        f' = { f with context := c } := by
  rw [run_ask]
  rcases (x (f.context.depthWithin env.config.maxNestingDepth).nested).outcome env
    f.context with ⟨_ | b, c⟩
  · simp [goOn, Except.map]
  · constructor
    · intro h
      cases h
      exact ⟨c, rfl, rfl⟩
    · rintro ⟨_, h, rfl⟩
      cases h
      rfl

end ResultShape.Walk
