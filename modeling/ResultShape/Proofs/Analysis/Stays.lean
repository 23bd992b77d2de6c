import ResultShape.Proofs.Analysis.Outcome
/-! Invariants of contexts: from a context with a property an action that succeeds comes to one with
it, and to a value with a property of its own. -/
namespace ResultShape.Analysis

/-- From a context with the first property, an action that succeeds leaves a context with it and
returns a value with the second one. -/
def Stays (I : Context → Prop) (env : Env) {α : Type} (Q : α → Prop) (x : Analysis α) : Prop :=
  ∀ c, I c → ∀ a c', x.outcome env c = (.ok a, c') → Q a ∧ I c'

namespace Stays

variable {I J : Context → Prop} {env : Env} {α β : Type} {Q : α → Prop} {Q' : β → Prop}
  {x : Analysis α}

theorem pure {a : α} (h : Q a) : Stays I env Q (Pure.pure a) := by
  intro c hc b c' ho
  cases ho
  exact ⟨h, hc⟩

theorem throw (e : AnalysisError) : Stays I env Q (MonadExcept.throw e : Analysis α) := by
  intro c _ a c' ho
  cases ho

theorem bind {f : α → Analysis β} (hx : Stays I env Q x) (hf : ∀ a, Q a → Stays I env Q' (f a)) :
    Stays I env Q' (x >>= f) := by
  intro c hc b c' ho
  obtain ⟨a, c₁, ho₁, ho⟩ := outcome_bind_eq_ok.1 ho
  obtain ⟨ha, hc₁⟩ := hx c hc a c₁ ho₁
  exact hf a ha c₁ hc₁ b c' ho

theorem map {f : α → β} (hx : Stays I env Q x) (hf : ∀ a, Q a → Q' (f a)) :
    Stays I env Q' (f <$> x) := by
  rw [← bind_pure_comp]
  exact hx.bind fun a ha => pure (hf a ha)

theorem discard (hx : Stays I env Q x) : Stays I env (fun _ => True) (discard x) :=
  hx.map fun _ _ => trivial

theorem catalog {f : Catalog → Analysis α} (hf : Stays I env Q (f env.catalog)) :
    Stays I env Q (Analysis.catalog >>= f) := fun c hc => hf c hc

theorem defaultSchema {f : String → Analysis α} (hf : Stays I env Q (f env.config.defaultSchema)) :
    Stays I env Q (Analysis.defaultSchema >>= f) := fun c hc => hf c hc

theorem read {f : Env → Analysis α} (hf : Stays I env Q (f env)) :
    Stays I env Q (MonadReader.read >>= f) :=
  fun c hc => hf c hc

theorem get {f : Context → Analysis α} (hf : ∀ c, I c → Stays I env Q (f c)) :
    Stays I env Q (MonadState.get >>= f) := fun c hc => hf c hc c hc

theorem bindings {f : Bindings → Analysis α} (hf : ∀ c, I c → Stays I env Q (f c.bindings)) :
    Stays I env Q (Analysis.bindings >>= f) := fun c hc => hf c hc c hc

theorem modify {f : Context → Context} (hf : ∀ c, I c → I (f c)) :
    Stays I env (fun _ => True) (modify f) := by
  intro c hc a c' ho
  cases ho
  exact ⟨trivial, hf c hc⟩

theorem mapM {γ : Type} {f : γ → Analysis α} {cs : List γ} (hf : ∀ c ∈ cs, Stays I env Q (f c)) :
    Stays I env (fun as => ∀ a ∈ as, Q a) (cs.mapM f) := by
  induction cs with
  | nil => exact pure fun _ h => nomatch h
  | cons c cs ih =>
    rw [List.mapM_cons]
    refine (hf c List.mem_cons_self).bind fun a ha => ?_
    refine (ih fun b hb => hf b (List.mem_cons_of_mem _ hb)).bind fun as has => pure ?_
    exact List.forall_mem_cons.2 ⟨ha, has⟩

theorem forM {γ : Type} {f : γ → Analysis PUnit} {cs : List γ}
    (hf : ∀ c ∈ cs, Stays I env (fun _ => True) (f c)) :
    Stays I env (fun _ => True) (cs.forM f) := by
  induction cs with
  | nil => exact pure trivial
  | cons c cs ih =>
    simp only [List.forM_eq_forM, List.forM_cons] at ih ⊢
    exact (hf c List.mem_cons_self).bind fun _ _ => ih fun b hb => hf b (List.mem_cons_of_mem _ hb)

/-- Inside a change of the context another property may stay. -/
theorem between {before after : Context → Context} (hbefore : ∀ c, I c → J (before c))
    (hx : Stays J env Q x)
    (hafter : ∀ c, J c → I (after c)) : Stays I env Q (between before after x) := by
  intro c hc a c' ho
  obtain ⟨c₁, hx', rfl⟩ := outcome_between_eq_ok.1 ho
  obtain ⟨ha, hc₁⟩ := hx _ (hbefore c hc) a c₁ hx'
  exact ⟨ha, hafter c₁ hc₁⟩

theorem opening (hdepth : ∀ c depth, I c → I { c with depth }) (hx : Stays I env Q x) :
    Stays I env Q (opening x) := by
  intro c hc a c' ho
  rw [outcome_opening] at ho
  split at ho
  · exact between (fun c hc => hdepth c _ hc) hx (fun c hc => hdepth c _ hc) c hc a c' ho
  · cases ho

theorem computingCte (name : String) (hbegin : ∀ c, I c → I { c.beginCte name with scopes := [] })
    (hend : ∀ c outer, I c → I outer → I { c.endCte name with scopes := outer.scopes })
    (hx : Stays I env Q x) :
    Stays I env Q (computingCte name x) :=
  fun c hc => between hbegin hx (fun c' hc' => hend c' c hc' hc) c hc

theorem fromScopes {ask : Catalog → ScopeStack → α × ScopeStack}
    (hask : ∀ c, I c →
      Q (ask env.catalog c.scopes).1 ∧ I { c with scopes := (ask env.catalog c.scopes).2 }) :
    Stays I env Q (fromScopes ask) := by
  intro c hc a c' ho
  rw [outcome_fromScopes] at ho
  cases ho
  exact hask c hc

end Stays

/-- What each action returns has the property, so all that they return in turn has it. -/
theorem Returns.mapM {α β : Type} {P : α → Prop} {f : β → Analysis α} {bs : List β}
    (hf : ∀ b ∈ bs, Returns P (f b)) : Returns (fun as => ∀ a ∈ as, P a) (bs.mapM f) := by
  intro env c as c' has
  have hstays : ∀ b ∈ bs, Stays (fun _ => True) env P (f b) :=
    fun b hb c _ a c' ha => ⟨hf b hb env c a c' ha, trivial⟩
  exact (Stays.mapM hstays c trivial as c' has).1

end ResultShape.Analysis
