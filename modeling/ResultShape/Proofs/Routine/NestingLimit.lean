import ResultShape.Proofs.Analysis.Termination
import ResultShape.Proofs.Routine.Outcome
import ResultShape.Proofs.Routine.Rules
/-! Nesting limit: what a limit on open queries does to the analysis of a whole routine. Under a
higher limit a walk goes on as under a lower one, also if the catalog is another one that gives the
same answers, and under a high enough limit it comes to its end. -/
namespace ResultShape

namespace Walk

variable {α β : Type}

/-- A question may open as many queries inside one another as the limit leaves at its place. -/
private theorem run_ask_within (x : Nested → Analysis α) (env : Env) (f : Findings) :
    ask x env f =
      goOn f
        ((x (Nested.within (env.config.maxNestingDepth - f.context.depth))).outcome
          env f.context) :=
  run_ask x env f

/-- The limit of the first environment stops the walk, or the walk goes on the same
way in the second environment. -/
def StoppedOrSame (env env' : Env) ⦃α : Type⦄ (Q : α → Prop) (x : Walk α) : Prop :=
  ∀ f, x env f = .error (.nestingTooDeep env.config.maxNestingDepth) ∨
    (x env f = x env' f ∧ ∀ a f', x env f = .ok (a, f') → Q a)

namespace StoppedOrSame

variable {env env' : Env}

private theorem of_run {Q : α → Prop} {x : Walk α} (run : Findings → α × Findings)
    (hx : ∀ f, x env f = .ok (run f)) (hx' : ∀ f, x env' f = .ok (run f)) (hQ : ∀ f, Q (run f).1) :
    StoppedOrSame env env' Q x := by
  intro f
  refine .inr ⟨(hx f).trans (hx' f).symm, fun a f' h => ?_⟩
  have hr : run f = (a, f') := Except.ok.inj ((hx f).symm.trans h)
  have ha := hQ f
  rwa [hr] at ha

private theorem bind {Q : α → Prop} {Q' : β → Prop} {x : Walk α} {g : α → Walk β}
    (hx : StoppedOrSame env env' Q x) (hg : ∀ a, Q a → StoppedOrSame env env' Q' (g a)) :
    StoppedOrSame env env' Q' (x >>= g) := by
  intro f
  rcases hx f with hs | ⟨he, hQ⟩
  · exact .inl (run_bind_of_error hs)
  · cases hr : x env f with
    | error e =>
      rw [run_bind_of_error hr, run_bind_of_error (he ▸ hr)]
      exact .inr ⟨rfl, fun a f' h => by cases h⟩
    | ok p =>
      obtain ⟨a, f'⟩ := p
      rw [run_bind_of_ok hr, run_bind_of_ok (he ▸ hr)]
      exact hg a (hQ a f' hr) f'

/-- What does the same with both catalogs goes on the same way with the
catalog of each environment. -/
private theorem catalog (h : env.FitsIn env') {Q : β → Prop} {g : Catalog → Walk β}
    (hg : ∀ c, StoppedOrSame env env' Q (g c))
    (hs : ∀ {c c' : Catalog}, c.AnswersLike c' → g c = g c') :
    StoppedOrSame env env' Q (Walk.catalog >>= g) := by
  intro f
  change g env.catalog env f = _ ∨ (g env.catalog env f = g env'.catalog env' f ∧ _)
  rw [← hs h.catalog]
  exact hg env.catalog f

private theorem defaultSchema (h : env.FitsIn env') :
    StoppedOrSame env env' (fun _ => True) Walk.defaultSchema := by
  refine of_run (fun f => (env.config.defaultSchema, f)) (fun _ => rfl) (fun f => ?_)
    fun _ => trivial
  rw [h.defaultSchema]
  rfl

private theorem rules (h : env.FitsIn env') :
    Rules (fun _ => True) (fun _ => True) (StoppedOrSame env env') where
  pure hQ := of_run (fun f => (_, f)) (fun _ => rfl) (fun _ => rfl) fun _ => hQ
  bind := bind
  catalog := catalog h
  defaultSchema := defaultSchema h
  get := of_run (fun f => (f, f)) (fun _ => rfl) (fun _ => rfl) fun _ _ _ _ => trivial
  minor {change} _ :=
    of_run (fun f => ((), change f)) (fun _ => rfl) (fun _ => rfl) fun _ => trivial
  bindTable _ _ _ := of_run (fun _ => ((), _)) (fun _ => rfl) (fun _ => rfl) fun _ => trivial
  addResultSet _ := of_run (fun _ => ((), _)) (fun _ => rfl) (fun _ => rfl) fun _ => trivial
  ofInfos _ := trivial
  ofRows _ _ := trivial
  ofTable _ _ := trivial

/-- What is asked while queries may be opened as far as the limit allows has the same
answer in both environments. -/
private theorem ask (h : env.FitsIn env') {x : Nested → Analysis α}
    (hx : ∀ n n', (∀ q, Analysis.StoppedOrSame env env' (n.query q) (n'.query q)) →
      (∀ q, Analysis.StoppedOrSame env env' (n.anchor q) (n'.anchor q)) →
      Analysis.StoppedOrSame env env' (x n) (x n')) :
    StoppedOrSame env env' (fun _ => True) (ask x) := by
  intro f
  obtain ⟨hquery, hanchor⟩ :=
    Analysis.StoppedOrSame.within h (Nat.sub_le_sub_right h.limit f.context.depth)
  rw [run_ask_within, run_ask_within]
  rcases hx _ _ hquery hanchor f.context with hs | he
  · refine .inl ?_
    rw [goOn, hs]
    rfl
  · rw [he]
    exact .inr ⟨rfl, fun _ _ _ => trivial⟩

/-- Every question has the same answer in both environments. -/
private theorem answered (h : env.FitsIn env') (a : Action) :
    a.Asks (Answered (fun _ => True) (StoppedOrSame env env')) := by
  have hc := Analysis.StoppedOrSame.congruence h
  have hl := Analysis.StoppedOrSame.layers h
  refine a.asks_of_forall (fun e => ?_) (fun q => ?_) fun ctes target sources isMerge items => ?_
  · exact ask h fun n n' hn _ => hc.resolve e fun q _ => hn q
  · exact ask h fun n n' hn _ => hn q
  · refine ask h fun n n' hn ha => ?_
    have hrows :=
      hl.outputItems (Analysis.StoppedOrSame.ctesRelated h hn ha) target sources isMerge items
      (fun _ _ => trivial) (fun _ _ _ _ => trivial) (fun q _ => hn q)
      (fun _ _ q _ => hn q) fun _ _ q _ => hn q
    exact hrows.between.between

/-- Statements end in the second environment as in the first one, unless the limit
of the first one stops them. -/
theorem statements (h : env.FitsIn env') (returnsTable : Bool) (ss : List Statement)
    (f : Findings) :
    Walk.statements returnsTable ss env f = .error (.nestingTooDeep env.config.maxNestingDepth) ∨
      Walk.statements returnsTable ss env f = Walk.statements returnsTable ss env' f :=
  ((rules h).statements returnsTable ss (fun a _ => answered h a) f).imp_right And.left

/-- A routine is walked in the second environment as in the first one, unless the
limit of the first one stops it. -/
theorem routine (h : env.FitsIn env') (r : Routine) (f : Findings) :
    Walk.routine r env f = .error (.nestingTooDeep env.config.maxNestingDepth) ∨
      Walk.routine r env f = Walk.routine r env' f :=
  ((rules h).routine r (fun a _ => answered h a) f).imp_right And.left

end StoppedOrSame

/-- Where no CTE is defined or being computed and no query is open. -/
def start : Place := ⟨[], [], 0⟩

/-- From the start of a statement the walk comes to its end, and to the
start of the next statement. -/
def Ends (env : Env) ⦃α : Type⦄ (Q : α → Prop) (x : Walk α) : Prop :=
  ∀ f, f.context.place = start → ∃ a f', x env f = .ok (a, f') ∧ f'.context.place = start ∧ Q a

namespace Ends

open Filter Analysis

variable {env : Env}

private theorem of_run {Q : α → Prop} {x : Walk α} (a : Findings → α) (change : Findings → Findings)
    (hx : ∀ f, x env f = .ok (a f, change f)) (hp : ∀ f, (change f).context.place = f.context.place)
    (hQ : ∀ f, Q (a f)) : Ends env Q x :=
  fun f hf => ⟨a f, change f, hx f, (hp f).trans hf, hQ f⟩

private theorem bind {Q : α → Prop} {Q' : β → Prop} {x : Walk α} {g : α → Walk β}
    (hx : Ends env Q x) (hg : ∀ a, Q a → Ends env Q' (g a)) : Ends env Q' (x >>= g) := by
  intro f hf
  obtain ⟨a, f', hr, hf', hQ⟩ := hx f hf
  rw [run_bind_of_ok hr]
  exact hg a hQ f' hf'

private theorem rules (env : Env) : Rules (fun _ => True) (fun _ => True) (Ends env) where
  pure hQ := of_run (fun _ => _) id (fun _ => rfl) (fun _ => rfl) fun _ => hQ
  bind := bind
  catalog hg _ := hg env.catalog
  defaultSchema :=
    of_run (fun _ => env.config.defaultSchema) id (fun _ => rfl) (fun _ => rfl) fun _ => trivial
  get := of_run id id (fun _ => rfl) (fun _ => rfl) fun _ _ _ _ => trivial
  minor {change} h :=
    of_run (fun _ => ()) change (fun _ => rfl) (fun f => by cases h <;> rfl) fun _ => trivial
  bindTable _ _ _ := of_run (fun _ => ()) _ (fun _ => rfl) (fun _ => rfl) fun _ => trivial
  addResultSet _ := of_run (fun _ => ()) _ (fun _ => rfl) (fun _ => rfl) fun _ => trivial
  ofInfos _ := trivial
  ofRows _ _ := trivial
  ofTable _ _ := trivial

/-- What succeeds at the start of a statement is answered. -/
private theorem ask {limit : Nat} {x : Nested → Analysis α}
    (hx : SucceedsAt (env.limited limit) start (x (Nested.within (limit - start.depth)))) :
    Ends (env.limited limit) (fun _ => True) (ask x) := by
  intro f hf
  obtain ⟨a, c, hr, hc⟩ := hx f.context hf
  have hd : f.context.depth = start.depth := congrArg Place.depth hf
  refine ⟨a, { f with context := c }, ?_, hc, trivial⟩
  rw [run_ask_within, hd]
  exact congrArg (goOn f) hr

private theorem eventually_expr (env : Env) (e : Expr) :
    ∀ᶠ limit in atTop, (Answered (fun _ => True) (Ends (env.limited limit))).expr e := by
  have hall := eventually_forall_mem fun q (_ : q ∈ e.queries) =>
      eventually_succeedsAt_nested env start q
  filter_upwards [hall] with limit h
  exact ask ((SucceedsAt.congruence _ start).resolve (n := Nested.within (limit - start.depth))
    (m := Nested.within (limit - start.depth)) e fun q hq => (h q hq).1)

private theorem eventually_query (env : Env) (q : Query) :
    ∀ᶠ limit in atTop, (Answered (fun _ => True) (Ends (env.limited limit))).query q := by
  filter_upwards [eventually_succeedsAt_nested env start q] with limit h
  exact ask h.1

private theorem eventually_output (env : Env) (ctes : List Cte) (target : Source)
    (sources : List Source) (isMerge : Bool) (items : List Item) :
    ∀ᶠ limit in atTop,
      (Answered (fun _ => True) (Ends (env.limited limit))).output ctes target sources
        isMerge items := by
  let p := start.withCtes ctes
  have htarget := eventually_forall_mem fun q (_ : q ∈ target.queries) =>
      eventually_succeedsAt_nested env p q
  have hsources := eventually_forall_mem fun s (_ : s ∈ sources) =>
    eventually_forall_mem fun q (_ : q ∈ s.queries) => eventually_succeedsAt_nested env p q
  have hitems := eventually_forall_mem fun i (_ : i ∈ items) =>
    eventually_forall_mem fun q (_ : q ∈ i.queries) => eventually_succeedsAt_nested env p q
  filter_upwards [eventually_ctesRelated env p, htarget, hsources, hitems] with limit hc ht hs hi
  have hrows :=
    (SucceedsAt.layers (env.limited limit) p).outputItems hc target sources isMerge items
    (fun _ _ => trivial) (fun _ _ _ _ => trivial) (fun q hq => (ht q hq).1)
    (fun s hm q hq => (hs s hm q hq).1) fun i hm q hq => (hi i hm q hq).1
  exact ask (hrows.withCtes.inScope)

private theorem eventually_asks (env : Env) (a : Action) :
    ∀ᶠ limit in atTop, a.Asks (Answered (fun _ => True) (Ends (env.limited limit))) := by
  have houtput (ctes : List Cte) (target : Source) (sources : List Source) (isMerge : Bool)
      (o : Option OutputClause) :
      ∀ᶠ limit in atTop, ∀ clause, o = some clause →
        (Answered (fun _ => True) (Ends (env.limited limit))).output ctes target sources isMerge
          clause.items := by
    cases o with
    | none => exact .of_forall fun _ _ h => by cases h
    | some clause =>
      filter_upwards [eventually_output env ctes target sources isMerge clause.items] with limit h
        clause' hc
      cases hc
      exact h
  unfold Action.Asks
  split
  · exact eventually_query env _
  · exact houtput _ _ _ _ _
  · exact houtput _ _ _ _ _
  · exact houtput _ _ _ _ _
  · exact houtput _ _ _ _ _
  · refine eventually_forall_mem fun d _ => ?_
    cases d.default with
    | none => exact .of_forall fun _ _ h => by cases h
    | some e =>
      filter_upwards [eventually_expr env e] with limit h e' he
      cases he
      exact h
  · exact eventually_expr env _
  · exact eventually_query env _
  · exact .of_forall fun _ => trivial

/-- Under every limit from some one on the walk over a routine comes to its end. -/
private theorem eventually_routine (env : Env) (r : Routine) :
    ∀ᶠ limit in atTop, Ends (env.limited limit) (fun _ => True) (routine r) := by
  filter_upwards [eventually_forall_mem fun a (_ : a ∈ r.actions) =>
    eventually_asks env a] with limit h
  exact (rules (env.limited limit)).routine r h

end Ends

end Walk

namespace Routine

variable (catalog : Catalog) (config : Config) (r : Routine)

/-- The model of a routine under a limit on open queries. -/
def modelWithin (limit : Nat) : Except AnalysisError RoutineModel :=
  r.model catalog { config with maxNestingDepth := limit }

private theorem modelWithin_eq (limit : Nat) :
    r.modelWithin catalog config limit =
      (Walk.routine r
        (Env.limited ⟨catalog.withDefaultSchema config.defaultSchema, config⟩ limit) {}).map
        fun p => p.2.model := rfl

/-- Under a higher limit the model is the same, unless the lower one was too low. -/
theorem modelWithin_eq_or_error {low high : Nat} (h : low ≤ high) :
    r.modelWithin catalog config low = .error (.nestingTooDeep low) ∨
      r.modelWithin catalog config low = r.modelWithin catalog config high := by
  let env : Env := ⟨catalog.withDefaultSchema config.defaultSchema, config⟩
  simp only [modelWithin_eq]
  rcases Walk.StoppedOrSame.routine (env.fitsIn_limited h) r {} with hs | he
  · exact .inl (by rw [hs]; rfl)
  · exact .inr (by rw [he])

/-- Some limit is high enough for a model. -/
theorem exists_modelWithin_eq_ok :
    ∃ limit model, r.modelWithin catalog config limit = .ok model := by
  let env : Env := ⟨catalog.withDefaultSchema config.defaultSchema, config⟩
  obtain ⟨limit, hl⟩ := (Walk.Ends.eventually_routine env r).exists
  obtain ⟨_, f, hr, -⟩ := hl {} rfl
  exact ⟨limit, f.model, by rw [modelWithin_eq, hr]; rfl⟩

/-- Every routine has a threshold. Under each limit below it the analysis fails for the nesting and
for nothing else; from it on all limits give one model. -/
theorem model_threshold :
    ∃ threshold model,
      (∀ limit < threshold,
        r.model catalog { config with maxNestingDepth := limit } = .error (.nestingTooDeep limit)) ∧
        ∀ limit, threshold ≤ limit →
          r.model catalog { config with maxNestingDepth := limit } = .ok model := by
  classical
  let threshold := Nat.find (exists_modelWithin_eq_ok catalog config r)
  obtain ⟨model, hm⟩ := Nat.find_spec (exists_modelWithin_eq_ok catalog config r)
  refine ⟨threshold, model, fun limit hl => ?_, fun limit hl => ?_⟩
  · rcases modelWithin_eq_or_error catalog config r (Nat.le_of_lt hl) with hs | he
    · exact hs
    · exact absurd ⟨model, he.trans hm⟩ (Nat.find_min _ hl)
  · rcases modelWithin_eq_or_error catalog config r hl with hs | he
    · rw [hs] at hm
      cases hm
    · exact he.symm.trans hm

end Routine

end ResultShape
