import ResultShape.Proofs.Alike.Scope
import ResultShape.Proofs.Analysis.Outcome
/-! Alike actions: from alike contexts two actions come to related values and alike
contexts, or to the same error. -/
namespace ResultShape.Likeness

variable {L : Likeness} {env : Env}

namespace Context

variable {c c' : ResultShape.Context} {name name' : String} {m m' : ColumnMap}

theorem withScopes (hc : L.Context c c') {stack stack' : ScopeStack} (hs : L.Scopes stack stack') :
    L.Context { c with scopes := stack } { c' with scopes := stack' } :=
  ⟨hs, hc.bindings, hc.cteFrames, hc.cteCache, hc.cteAnchors, hc.ctesInProgress,
    hc.statement, hc.depth⟩

theorem withBindings (hc : L.Context c c') {b b' : ResultShape.Bindings} (hb : L.Bindings b b') :
    L.Context { c with bindings := b } { c' with bindings := b' } :=
  ⟨hc.scopes, hb, hc.cteFrames, hc.cteCache, hc.cteAnchors, hc.ctesInProgress,
    hc.statement, hc.depth⟩

theorem nextStatement (hc : L.Context c c') : L.Context c.nextStatement c'.nextStatement :=
  ⟨hc.scopes, hc.bindings, hc.cteFrames, hc.cteCache, hc.cteAnchors, hc.ctesInProgress,
    congrArg (· + 1) hc.statement, hc.depth⟩

theorem deeper (hc : L.Context c c') :
    L.Context { c with depth := c.depth + 1 } { c' with depth := c'.depth + 1 } :=
  ⟨hc.scopes, hc.bindings, hc.cteFrames, hc.cteCache, hc.cteAnchors,
    hc.ctesInProgress, hc.statement, congrArg (· + 1) hc.depth⟩

theorem leave (hc : L.Context c c') : L.Context c.leave c'.leave :=
  ⟨hc.scopes, hc.bindings, hc.cteFrames, hc.cteCache, hc.cteAnchors,
    hc.ctesInProgress, hc.statement, congrArg (· - 1) hc.depth⟩

theorem pushScope (hc : L.Context c c') : L.Context c.pushScope c'.pushScope :=
  hc.withScopes (.cons .empty hc.scopes)

theorem popScope (hc : L.Context c c') : L.Context c.popScope c'.popScope :=
  hc.withScopes (Scopes.tail hc.scopes)

theorem pushCtes (hc : L.Context c c') {ctes ctes' : List ResultShape.Cte}
    (h : List.Forall₂ L.Cte ctes ctes') :
    L.Context (c.pushCtes ctes) (c'.pushCtes ctes') :=
  ⟨hc.scopes, hc.bindings, .cons h hc.cteFrames, hc.cteCache, hc.cteAnchors, hc.ctesInProgress,
    hc.statement, hc.depth⟩

theorem popCtes (hc : L.Context c c') : L.Context c.popCtes c'.popCtes := by
  refine ⟨hc.scopes, hc.bindings, ?_, hc.cteCache, hc.cteAnchors, hc.ctesInProgress,
    hc.statement, hc.depth⟩
  have hframes := hc.cteFrames
  unfold ResultShape.Context.popCtes
  dsimp only
  generalize c.cteFrames = frames at hframes
  generalize c'.cteFrames = frames' at hframes
  cases hframes with
  | nil => exact .nil
  | cons _ hframes => exact hframes

variable (h : L.Lawful env)

include h

theorem cacheCte (hc : L.Context c c') (hn : L.same name name') (hm : L.Map m m') :
    L.Context (c.cacheCte name m) (c'.cacheCte name' m') := by
  refine ⟨hc.scopes, hc.bindings, hc.cteFrames, ?_, hc.cteAnchors, hc.ctesInProgress,
    hc.statement, hc.depth⟩
  simp only [ResultShape.Context.cacheCte, h.fold_eq hn, hc.statement]
  exact hc.cteCache.insert _ hm

theorem setCteAnchor (hc : L.Context c c') (hn : L.same name name') (hm : L.Map m m') :
    L.Context (c.setCteAnchor name m) (c'.setCteAnchor name' m') := by
  refine ⟨hc.scopes, hc.bindings, hc.cteFrames, hc.cteCache, ?_, hc.ctesInProgress,
    hc.statement, hc.depth⟩
  simp only [ResultShape.Context.setCteAnchor, h.fold_eq hn]
  exact hc.cteAnchors.insert _ hm

theorem isCteInProgress_eq (hc : L.Context c c') (hn : L.same name name') :
    c.isCteInProgress name = c'.isCteInProgress name' := by
  rw [ResultShape.Context.isCteInProgress, ResultShape.Context.isCteInProgress, h.fold_eq hn,
    hc.ctesInProgress]

theorem beginCte (hc : L.Context c c') (hn : L.same name name') :
    L.Context (c.beginCte name) (c'.beginCte name') := by
  unfold ResultShape.Context.beginCte
  rw [hc.isCteInProgress_eq h hn]
  split
  · exact hc
  · exact ⟨hc.scopes, hc.bindings, hc.cteFrames, hc.cteCache, hc.cteAnchors,
      by rw [h.fold_eq hn, hc.ctesInProgress], hc.statement, hc.depth⟩

theorem endCte (hc : L.Context c c') (hn : L.same name name') :
    L.Context (c.endCte name) (c'.endCte name') := by
  unfold ResultShape.Context.endCte
  rw [h.fold_eq hn]
  exact ⟨hc.scopes, hc.bindings, hc.cteFrames, hc.cteCache,
    hc.cteAnchors.erase _, by rw [hc.ctesInProgress], hc.statement, hc.depth⟩

theorem cachedCte? (hc : L.Context c c') (hn : L.same name name') :
    Option.Rel L.Map (c.cachedCte? name) (c'.cachedCte? name') := by
  rw [ResultShape.Context.cachedCte?, ResultShape.Context.cachedCte?, h.fold_eq hn, hc.statement]
  exact hc.cteCache.get? _

theorem cteAnchor? (hc : L.Context c c') (hn : L.same name name') :
    Option.Rel L.Map (c.cteAnchor? name) (c'.cteAnchor? name') := by
  rw [ResultShape.Context.cteAnchor?, ResultShape.Context.cteAnchor?, h.fold_eq hn]
  exact hc.cteAnchors.get? _

theorem cteNamed? (hc : L.Context c c') {n n' : Name} (hn : n.Alike L.same n') :
    Option.Rel L.Cte (c.cteNamed? n) (c'.cteNamed? n') := by
  have hcte (cte cte' : ResultShape.Cte) (hcte : L.Cte cte cte') :
      Text.same cte.name n.name = Text.same cte'.name n'.name := by
    have hname : L.same cte.name cte'.name := hcte.eq ▸ h.name cte.name
    rw [Text.same, Text.same, h.fold_eq hname, h.fold_eq hn.name]
  unfold ResultShape.Context.cteNamed?
  rw [isNone_eq hn.schema, isNone_eq hn.catalog]
  split
  · exact rel_find? (List.rel_flatten hc.cteFrames) hcte
  · exact .none

end Context

section

variable {α β γ δ : Type}

/-- How two actions end: in related values and alike contexts, or in the same error. -/
inductive Ends (L : Likeness) (S : α → β → Prop) :
    Except AnalysisError α × ResultShape.Context →
    Except AnalysisError β × ResultShape.Context → Prop where
  | ok {a : α} {b : β} {c c' : ResultShape.Context} (h : S a b) (hc : L.Context c c') :
      Ends L S (.ok a, c) (.ok b, c')
  | error (e : AnalysisError) (c c' : ResultShape.Context) : Ends L S (.error e, c) (.error e, c')

/-- From alike contexts the actions end alike. -/
def Agree (L : Likeness) (env : Env) (S : α → β → Prop) (x : Analysis α) (y : Analysis β) : Prop :=
  ∀ c c', L.Context c c' → L.Ends S (x.outcome env c) (y.outcome env c')

/-- Nothing is asked of the values that actions return. -/
def Any : α → β → Prop := fun _ _ => True

namespace Agree

variable {S : α → β → Prop} {T : γ → δ → Prop} {x : Analysis α} {y : Analysis β}

theorem pure {a : α} {b : β} (h : S a b) : L.Agree env S (Pure.pure a) (Pure.pure b) :=
  fun _ _ hc => .ok h hc

theorem throw (e : AnalysisError) :
    L.Agree env S (MonadExcept.throw e : Analysis α) (MonadExcept.throw e : Analysis β) :=
  fun _ _ _ => .error e _ _

theorem bind (hx : L.Agree env S x y) {f : α → Analysis γ} {g : β → Analysis δ}
    (hf : ∀ a b, S a b → L.Agree env T (f a) (g b)) : L.Agree env T (x >>= f) (y >>= g) := by
  intro c c' hc
  have hend := hx c c' hc
  rw [Analysis.outcome_bind, Analysis.outcome_bind]
  generalize x.outcome env c = p at hend
  generalize y.outcome env c' = p' at hend
  cases hend with
  | ok h hc => exact hf _ _ h _ _ hc
  | error e => exact .error e _ _

theorem mapM {R : γ → δ → Prop} {f : γ → Analysis α} {g : δ → Analysis β}
    (hf : ∀ a b, R a b → L.Agree env S (f a) (g b)) {as : List γ} {bs : List δ}
    (hs : List.Forall₂ R as bs) :
    L.Agree env (List.Forall₂ S) (as.mapM f) (bs.mapM g) := by
  induction hs with
  | nil => exact pure .nil
  | cons hab _ ih =>
    simp only [List.mapM_cons]
    exact (hf _ _ hab).bind fun _ _ ha => ih.bind fun _ _ has => pure (.cons ha has)

theorem forM {R : γ → δ → Prop} {f : γ → Analysis PUnit} {g : δ → Analysis PUnit}
    (hf : ∀ a b, R a b → L.Agree env Any (f a) (g b)) {as : List γ} {bs : List δ}
    (hs : List.Forall₂ R as bs) :
    L.Agree env Any (as.forM f) (bs.forM g) := by
  induction hs with
  | nil => exact pure trivial
  | cons hab _ ih =>
    simp only [List.forM_eq_forM, List.forM_cons] at ih ⊢
    exact (hf _ _ hab).bind fun _ _ _ => ih

theorem mapM_map {f : γ → Analysis α} {g : δ → Analysis β} (ρ : γ → δ) {as : List γ}
    (hf : ∀ a ∈ as, L.Agree env S (f a) (g (ρ a))) :
    L.Agree env (List.Forall₂ S) (as.mapM f) ((as.map ρ).mapM g) :=
  mapM (R := fun a b => L.Agree env S (f a) (g b)) (fun _ _ h => h) (forall₂_map_of_mem hf)

theorem forM_map {f : γ → Analysis PUnit} {g : δ → Analysis PUnit} (ρ : γ → δ) {as : List γ}
    (hf : ∀ a ∈ as, L.Agree env Any (f a) (g (ρ a))) : L.Agree env Any (as.forM f)
    ((as.map ρ).forM g) :=
  forM (R := fun a b => L.Agree env Any (f a) (g b)) (fun _ _ h => h) (forall₂_map_of_mem hf)

theorem map (hx : L.Agree env S x y) {f : α → γ} {g : β → δ} (hfg : ∀ a b, S a b → T (f a) (g b)) :
    L.Agree env T (f <$> x) (g <$> y) := by
  rw [← bind_pure_comp, ← bind_pure_comp]
  exact hx.bind fun a b hab => pure (hfg a b hab)

theorem discard (hx : L.Agree env S x y) : L.Agree env Any (discard x) (discard y) :=
  hx.map fun _ _ _ => trivial

theorem catalog {f : Catalog → Analysis α} {g : Catalog → Analysis β}
    (hf : L.Agree env S (f env.catalog) (g env.catalog)) :
    L.Agree env S (Analysis.catalog >>= f) (Analysis.catalog >>= g) := fun c c' hc => hf c c' hc

theorem read {f : Env → Analysis α} {g : Env → Analysis β} (hf : L.Agree env S (f env) (g env)) :
    L.Agree env S (MonadReader.read >>= f) (MonadReader.read >>= g) := fun c c' hc => hf c c' hc

theorem defaultSchema {f : String → Analysis α} {g : String → Analysis β}
    (hf : L.Agree env S (f env.config.defaultSchema) (g env.config.defaultSchema)) :
    L.Agree env S (Analysis.defaultSchema >>= f) (Analysis.defaultSchema >>= g) :=
  fun c c' hc => hf c c' hc

theorem bindings : L.Agree env L.Bindings Analysis.bindings Analysis.bindings :=
  fun _ _ hc => .ok hc.bindings hc

theorem get {f : ResultShape.Context → Analysis α} {g : ResultShape.Context → Analysis β}
    (hf : ∀ c c', L.Context c c' → L.Agree env S (f c) (g c')) :
    L.Agree env S (MonadState.get >>= f) (MonadState.get >>= g) := fun c c' hc => hf c c' hc c c' hc

theorem modify {f g : ResultShape.Context → ResultShape.Context}
    (hf : ∀ c c', L.Context c c' → L.Context (f c) (g c')) :
    L.Agree env Any (modify f) (modify g) := fun c c' hc => .ok trivial (hf c c' hc)

theorem between {before before' after after' : ResultShape.Context → ResultShape.Context}
    (hbefore : ∀ c c', L.Context c c' → L.Context (before c) (before' c'))
    (hafter : ∀ c c', L.Context c c' → L.Context (after c) (after' c')) (hx : L.Agree env S x y) :
    L.Agree env S (Analysis.between before after x) (Analysis.between before' after' y) := by
  intro c c' hc
  have hend := hx _ _ (hbefore c c' hc)
  rw [Analysis.outcome_between, Analysis.outcome_between]
  generalize x.outcome env (before c) = p at hend
  generalize y.outcome env (before' c') = p' at hend
  cases hend with
  | ok h hc => exact .ok h (hafter _ _ hc)
  | error e => exact .error e _ _

theorem inScope (hx : L.Agree env S x y) :
    L.Agree env S (Analysis.inScope x) (Analysis.inScope y) :=
  hx.between (fun _ _ hc => hc.pushScope) fun _ _ hc => hc.popScope

theorem withCtes {ctes ctes' : List ResultShape.Cte} (hctes : List.Forall₂ L.Cte ctes ctes')
    (hx : L.Agree env S x y) :
    L.Agree env S (Analysis.withCtes ctes x) (Analysis.withCtes ctes' y) :=
  hx.between (fun _ _ hc => hc.pushCtes hctes) fun _ _ hc => hc.popCtes

theorem opening (hx : L.Agree env S x y) :
    L.Agree env S (Analysis.opening x) (Analysis.opening y) := by
  intro c c' hc
  rw [Analysis.outcome_opening, Analysis.outcome_opening, hc.depth]
  split
  · exact hx.between (fun _ _ hc => hc.deeper) (fun _ _ hc => hc.leave) c c' hc
  · exact .error _ _ _

theorem computingCte (h : L.Lawful env) {name name' : String} (hn : L.same name name')
    (hx : L.Agree env S x y) :
    L.Agree env S (Analysis.computingCte name x) (Analysis.computingCte name' y) := by
  refine get fun c₀ c₀' hc₀ => hx.between (fun c c' hc => ?_) fun c c' hc => ?_
  · exact (hc.beginCte h hn).withScopes .nil
  · exact (hc.endCte h hn).withScopes hc₀.scopes

/-- An answer of the scopes is alike if it is in any alike scopes. -/
theorem fromScopes {ask : Catalog → ScopeStack → α × ScopeStack}
    {ask' : Catalog → ScopeStack → β × ScopeStack} (hask : ∀ stack stack', L.Scopes stack stack' →
      S (ask env.catalog stack).1 (ask' env.catalog stack').1 ∧
        L.Scopes (ask env.catalog stack).2 (ask' env.catalog stack').2) :
    L.Agree env S (Analysis.fromScopes ask) (Analysis.fromScopes ask') := by
  intro c c' hc
  obtain ⟨hanswer, hscopes⟩ := hask _ _ hc.scopes
  rw [Analysis.outcome_fromScopes, Analysis.outcome_fromScopes]
  exact .ok hanswer (hc.withScopes hscopes)

theorem addEntry (h : L.Lawful env) {e e' : ResultShape.Entry} (he : L.Entry e e')
    {names names' : List String} (hn : List.Forall₂ L.same names names') :
    L.Agree env Any (Analysis.addEntry e names) (Analysis.addEntry e' names') :=
  modify fun _ _ hc => hc.withScopes (Scopes.add h hc.scopes he hn)

end Agree

end

/-- A query and the query rewritten are resolved alike, and so are their leftmost branches. -/
def Nested (L : Likeness) (env : Env) (n n' : ResultShape.Nested) : Prop :=
  ∀ q : Query, (∀ k ∈ q.constructs, L.allows k) →
    L.Agree env L.Set (n.query q) (n'.query (q.rewrite L.rewriting)) ∧
      L.Agree env (List.Forall₂ L.Column) (n.anchor q) (n'.anchor (q.rewrite L.rewriting))

end ResultShape.Likeness
