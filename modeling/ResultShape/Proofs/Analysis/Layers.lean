import ResultShape.Analysis.Routine
import ResultShape.Proofs.Analysis.Congruence
/-! Layers: a query block runs in a scope of its own, so what it does inside that scope and what it
does to the scopes around it are two relations. Both hold of a block as soon as they hold of the
queries in it and of the CTEs that it may meet. -/
namespace ResultShape

namespace ScopeStack

/-- The innermost scope; where there is none, one without entries. -/
def innermost (stack : ScopeStack) : Scope := stack.head?.getD {}

private theorem size_eq (stack : ScopeStack) : stack.size = stack.innermost.entries.length := by
  cases stack <;> rfl

private theorem entryAt?_eq (stack : ScopeStack) (i : Nat) :
    stack.entryAt? i = stack.innermost.entries[i]? := by
  cases stack <;> rfl

private theorem index?_eq (stack : ScopeStack) (name : String) :
    stack.head?.bind (·.index? name) = stack.innermost.index? name := by cases stack <;> rfl

private theorem registered?_eq (stack : ScopeStack) (target : Source) :
    target.registered? stack = target.registered? [stack.innermost] := by
  unfold Source.registered?
  split
  · exact index?_eq stack _
  · rfl

private theorem targetReference_eq (stack : ScopeStack) :
    Walk.targetReference stack = Walk.targetReference [stack.innermost] := by cases stack <;> rfl

end ScopeStack

namespace Analysis

/-- The relation `inner` is that of actions in the scope that they fill, `outer` that of actions
that leave the innermost scope alone. What an action reads of two contexts is related if the
contexts are related by `P`; their innermost scopes are the same. -/
structure Layers (P : Context → Context → Prop)
    (inner outer : ∀ ⦃α : Type⦄, Analysis α → Analysis α → Prop) : Prop where
  toInner : Congruence inner
  toOuter : Congruence outer
  innermost : ∀ {c c' : Context}, P c c' → c'.scopes.innermost = c.scopes.innermost
  get : ∀ {β : Type} {f g : Context → Analysis β},
    (∀ c c', P c c' → inner (f c) (g c')) → inner (MonadState.get >>= f) (MonadState.get >>= g)
  addEntry : ∀ e names, inner (addEntry e names) (addEntry e names)
  markSide : ∀ isNullable side, inner (markSide isNullable side) (markSide isNullable side)
  ofOuter : ∀ {α : Type} {x y : Analysis α}, outer x y → inner x y
  inScope : ∀ {α : Type} {x y : Analysis α}, inner x y → outer (inScope x) (inScope y)

/-- The contexts are one context, which has a property. -/
def Both (Q : Context → Prop) (c c' : Context) : Prop := c = c' ∧ Q c

theorem Both.innermost_eq {Q : Context → Prop} {c c' : Context} (h : Both Q c c') :
    c'.scopes.innermost = c.scopes.innermost := h.1 ▸ rfl

variable {P : Context → Context → Prop} {Q : Context → Prop} {A : Name → Prop}
  {R S : ∀ ⦃α : Type⦄, Analysis α → Analysis α → Prop} {n m : Nested}

/-- A name that is not local and that `A` holds of means the same in related contexts, and the
columns of a CTE that it means are found alike. -/
def CtesRelated (P : Context → Context → Prop) (A : Name → Prop)
    (R : ∀ ⦃α : Type⦄, Analysis α → Analysis α → Prop) (n m : Nested) : Prop :=
  ∀ c c' name, name.isLocal = false → A name → P c c' → c'.cteNamed? name = c.cteNamed? name ∧
    ∀ cte, c.cteNamed? name = some cte → R (cteColumns n cte) (cteColumns m cte)

/-- The columns of the CTEs that a name may mean in a context with a property are found alike. -/
theorem CtesRelated.of_both
    (h : ∀ c name cte, Q c → c.cteNamed? name = some cte →
      R (cteColumns n cte) (cteColumns m cte)) :
    CtesRelated (Both Q) A R n m := by
  rintro c _ name - - ⟨rfl, hQ⟩
  exact ⟨rfl, fun cte hname => h c name cte hQ hname⟩

/-- A definition is computed alike if its leftmost branch and the whole of it are resolved alike. -/
theorem Congruence.computeCte (h : Congruence R) {cte : Cte}
    (hs : ∀ columns,
      R (modify (.setCteAnchor cte.name columns)) (modify (.setCteAnchor cte.name columns)))
    (ha : R (n.anchor cte.query) (m.anchor cte.query))
    (hq : R (n.query cte.query) (m.query cte.query)) :
    R (computeCte n cte) (computeCte m cte) := by
  have hset := h.bind hq fun set => h.pure (ColumnMap.ofColumns set.columns cte.columns)
  unfold Analysis.computeCte
  dsimp only
  split
  · exact h.bind ha fun anchor => h.bind (hs _) fun _ => hset
  · exact hset

namespace Layers

/-- The columns of a CTE are found alike in one context if the CTE is computed alike. -/
theorem cteColumns (h : Layers (Both Q) R S) {cte : Cte}
    (hm : ∀ columns, R (modify (.cacheCte cte.name columns)) (modify (.cacheCte cte.name columns)))
    (hc : ∀ c, Q c → c.isCteInProgress cte.name = false →
      S (computingCte cte.name (computeCte n cte)) (computingCte cte.name (computeCte m cte))) :
    R (cteColumns n cte) (cteColumns m cte) := by
  refine h.get ?_
  rintro c _ ⟨rfl, hQ⟩
  split
  · exact h.toInner.pure _
  · split
    · exact h.toInner.pure _
    · rename_i hp
      have hx := h.ofOuter (hc c hQ (by simpa using hp))
      exact h.toInner.bind hx fun columns => h.toInner.bind (hm columns) fun _ =>
        h.toInner.pure columns

/-- The columns of CTEs are found alike in one context if the CTEs are computed alike. -/
theorem ctesRelated (h : Layers (Both Q) R S)
    (hm : ∀ name columns, R (modify (.cacheCte name columns)) (modify (.cacheCte name columns)))
    (hc : ∀ c c' name cte, Q c → c.cteNamed? name = some cte → Q c' →
      c'.isCteInProgress cte.name = false →
      S (computingCte cte.name (computeCte n cte)) (computingCte cte.name (computeCte m cte))) :
    CtesRelated (Both Q) A R n m :=
  .of_both fun c name cte hQ hname => h.cteColumns (hm cte.name) fun c' hQ' hp =>
    hc c c' name cte hQ hname hQ' hp

variable (h : Layers P R S)

include h

private theorem addLocal (name : String) (aliasName : Option String) :
    R (addLocal name aliasName) (addLocal name aliasName) :=
  h.toInner.bind h.toInner.bindings fun _ => h.addEntry _ _

private theorem addTable (name : Name) (aliasName : Option String) :
    R (addTable name aliasName) (addTable name aliasName) :=
  h.toInner.bind h.toInner.defaultSchema fun _ =>
    h.toInner.catalog (fun _ => h.addEntry _ _) fun hc => by
    simp only [hc.objectKind?_eq]

private theorem addNamed (hc : CtesRelated P A R n m) {name : Name} (ha : A name)
    (aliasName : Option String) :
    R (addNamed n name aliasName) (addNamed m name aliasName) := by
  unfold Analysis.addNamed
  split
  · exact h.addLocal _ _
  · rename_i hlocal
    refine h.get fun c c' hP => ?_
    obtain ⟨hsame, hcolumns⟩ := hc c c' name (by simpa using hlocal) ha hP
    rw [hsame]
    split
    · rename_i cte hcte
      exact h.toInner.bind (hcolumns cte hcte) fun _ => h.addEntry _ _
    · exact h.addTable _ _

private theorem functionColumns (function : Name) (owner : ColumnSource) :
    R (functionColumns function owner) (functionColumns function owner) :=
  h.toInner.catalog (fun _ => h.toInner.pure _) fun hc => by
    simp only [hc.functionColumns?_eq, hc.ofRecord_eq]

private theorem addFunction (name : Name) (aliasName : Option String) :
    R (addFunction name aliasName) (addFunction name aliasName) := by
  unfold Analysis.addFunction
  split
  · exact h.addEntry _ _
  · exact h.toInner.bind h.toInner.defaultSchema fun _ =>
      h.toInner.bind (h.functionColumns _ _) fun _ => h.addEntry _ _

private theorem addOpenJson (declared : List OpenJsonColumn) (aliasName : Option String) :
    R (addOpenJson declared aliasName) (addOpenJson declared aliasName) :=
  h.toInner.catalog (fun _ => h.addEntry _ _) fun hc => by simp only [hc.openJsonColumn_eq]

private theorem size_eq {c c' : Context} (hP : P c c') : c'.scopes.size = c.scopes.size := by
  rw [ScopeStack.size_eq, ScopeStack.size_eq, h.innermost hP]

private theorem added {x y : Analysis Unit} (hx : R x y) : R (added x) (added y) := by
  refine h.get fun c c' hP => h.toInner.bind hx fun _ => h.get fun c₁ c₁' hP₁ => ?_
  rw [h.size_eq hP, h.size_eq hP₁]
  exact h.toInner.pure _

/-- Sources are registered alike if the queries in them are resolved alike. -/
theorem register (hc : CtesRelated P A R n m) (s : Source) (ha : ∀ name ∈ s.references, A name)
    (hq : ∀ q ∈ s.queries, S (n.query q) (m.query q)) : R (s.register n) (s.register m) := by
  induction s using Source.register.induct with
  | case1 name aliasName =>
    exact h.added (h.addNamed hc (ha name (by simp [Source.references])) aliasName)
  | case2 name aliasName => exact h.added (h.addLocal name aliasName)
  | case3 query aliasName columns =>
    exact h.added
      (h.toInner.bind (h.ofOuter (hq query (by simp [Source.queries]))) fun _ => h.addEntry _ _)
  | case4 name args aliasName => exact h.added (h.addFunction name aliasName)
  | case5 value path columns aliasName => exact h.added (h.addOpenJson columns aliasName)
  | case6 kind left right on ihl ihr =>
    have hl := ihl (fun name hm => ha name (by simp [Source.references, hm])) fun q hm =>
      hq q (by simp [Source.queries, hm])
    have hr := ihr (fun name hm => ha name (by simp [Source.references, hm])) fun q hm =>
      hq q (by simp [Source.queries, hm])
    exact h.added (h.toInner.bind hl fun l => h.toInner.bind hr fun r =>
      h.toInner.bind (h.markSide _ l) fun _ => h.markSide _ r)

theorem registerAll (hc : CtesRelated P A R n m) (ss : List Source)
    (ha : ∀ s ∈ ss, ∀ name ∈ s.references, A name)
    (hq : ∀ s ∈ ss, ∀ q ∈ s.queries, S (n.query q) (m.query q)) :
    R (ss.forM fun s => discard (s.register n)) (ss.forM fun s => discard (s.register m)) :=
  h.toInner.forM fun s hs => h.toInner.map (h.register hc s (ha s hs) (hq s hs)) _

/-- Blocks project alike, in the scope that they fill, if the queries in them are resolved alike. -/
theorem select (hc : CtesRelated P A R n m) (s : Select) (ha : ∀ name ∈ s.references, A name)
    (hq : ∀ q ∈ s.queries, S (n.query q) (m.query q)) : R (s.project n) (s.project m) := by
  refine h.toInner.bind
    (h.registerAll hc s.sources (fun t ht name hm => ha name ?_) fun t ht q hm => hq q ?_) fun _ =>
    h.toInner.projectAll s.items fun i hi q hm => h.ofOuter (hq q ?_)
  · exact List.mem_flatMap.2 ⟨t, ht, hm⟩
  · exact List.mem_append_left _ (List.mem_flatMap.2 ⟨t, ht, hm⟩)
  · exact List.mem_append_right _ (List.mem_flatMap.2 ⟨i, hi, hm⟩)

/-- Bodies project alike, as far as the scopes around them go, if the queries
in them are resolved alike. -/
theorem body (hc : CtesRelated P A R n m) (b : Body) (ha : ∀ name ∈ b.references, A name)
    (hq : ∀ q ∈ b.queries, S (n.query q) (m.query q)) : S (b.project n) (b.project m) := by
  induction b using Body.project.induct with
  | case1 block => exact h.inScope (h.select hc block ha hq)
  | case2 query =>
    exact h.toOuter.bind (hq query (by simp [Body.queries])) fun _ => h.toOuter.pure _
  | case3 op left right ihl ihr =>
    have hl := ihl (fun name hm => ha name (by simp [Body.references, hm])) fun q hm =>
      hq q (by simp [Body.queries, hm])
    have hr := ihr (fun name hm => ha name (by simp [Body.references, hm])) fun q hm =>
      hq q (by simp [Body.queries, hm])
    exact h.toOuter.bind hl fun l => h.toOuter.bind hr fun r => h.toOuter.pure (l.union r)

private theorem addPseudoTables (position : Nat) (nullable : Bool) :
    R (addPseudoTables position nullable) (addPseudoTables position nullable) := by
  refine h.get fun c c' hP => ?_
  rw [ScopeStack.entryAt?_eq, ScopeStack.entryAt?_eq, h.innermost hP]
  split
  · exact h.toInner.pure ()
  · exact h.toInner.catalog (fun _ => h.toInner.forM fun _ _ => h.addEntry _ _) fun hc => by
      simp only [hc.load_eq]

private theorem targetPosition (hc : CtesRelated P A R n m) (target : Source)
    (ha : ∀ name ∈ target.references, A name)
    (hq : ∀ q ∈ target.queries, S (n.query q) (m.query q)) :
    R (target.targetPosition n) (target.targetPosition m) := by
  refine h.get fun c c' hP => ?_
  rw [ScopeStack.registered?_eq, ScopeStack.registered?_eq c'.scopes, h.innermost hP]
  split
  · exact h.toInner.pure _
  · exact h.toInner.bind (h.register hc target ha hq) fun range => h.toInner.pure range.1

/-- The rows of a change are read alike if the queries in the sources and
the items are resolved alike. -/
theorem outputItems (hc : CtesRelated P A R n m) (target : Source) (sources : List Source)
    (isMerge : Bool) (items : List Item) (hat : ∀ name ∈ target.references, A name)
    (has : ∀ s ∈ sources, ∀ name ∈ s.references, A name)
    (ht : ∀ q ∈ target.queries, S (n.query q) (m.query q))
    (hs : ∀ s ∈ sources, ∀ q ∈ s.queries, S (n.query q) (m.query q))
    (hi : ∀ i ∈ items, ∀ q ∈ i.queries, S (n.query q) (m.query q)) :
    R (Walk.outputItems target sources isMerge items n)
      (Walk.outputItems target sources isMerge items m) := by
  have hsources := h.registerAll hc sources has hs
  have htarget (nullable : Bool) :
      R (target.registerTarget n nullable) (target.registerTarget m nullable) :=
    h.toInner.bind (h.targetPosition hc target hat ht) fun position =>
      h.addPseudoTables position nullable
  have hchange :
      R (Walk.registerChange n target sources isMerge)
        (Walk.registerChange m target sources isMerge) := by
    cases isMerge with
    | true => exact h.toInner.bind (htarget true) fun _ => hsources
    | false => exact h.toInner.bind hsources fun _ => htarget false
  have hitems := h.toInner.projectAll items fun i hm q hq => h.ofOuter (hi i hm q hq)
  refine h.toInner.bind hchange fun _ =>
    h.toInner.bind (h.toInner.bind hitems fun _ => h.toInner.pure _) fun _ =>
    h.get fun c c' hP => ?_
  rw [ScopeStack.targetReference_eq, ScopeStack.targetReference_eq c'.scopes, h.innermost hP]
  exact h.toInner.pure _

end Layers

end Analysis

end ResultShape
