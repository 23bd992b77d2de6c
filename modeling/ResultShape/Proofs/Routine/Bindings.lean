import ResultShape.Proofs.Analysis.Restoration
import ResultShape.Proofs.Routine.Outcome
/-! Bindings: what the steps of a walk that bind a name leave behind, case by case. -/
namespace ResultShape

namespace Bindings

theorem table?_bindTable (b : Bindings) (name : String) (columns : ColumnMap) :
    (b.bindTable name columns).table? name = some columns :=
  (Keyed.get?_insert ..).trans (if_pos rfl)

end Bindings

/-- Where the walk stands, nobody knows the declared type, and no default
gives the variable another one. -/
structure VariableDeclaration.LeavesUntyped (env : Env) (d : VariableDeclaration)
    (f : Findings) : Prop where
  noTable : env.catalog.tableTypeColumns? d.type.name = none
  unknown : env.catalog.resolveType? d.type = none
  noDefault : ∀ e, d.default = some e → ∃ g, Walk.typeOf e env f = .ok (none, g)

namespace Walk

variable {env : Env} {f f' : Findings}

/-- What a declaration comes to. -/
inductive Declares (env : Env) (d : VariableDeclaration) (f f' : Findings) : Prop
  | table {records : List ColumnRecord}
    (h : env.catalog.tableTypeColumns? d.type.name = some records)
    (hb : f'.context.bindings =
      f.context.bindings.bindTable d.name (.ofRecords env.catalog { table := some d.name } records))
    (hu : f'.untyped = f.untyped)
  | known {facts : TypeFacts} (h : env.catalog.resolveType? d.type = some facts)
    (hb : f'.context.bindings = f.context.bindings.bindScalar d.name facts)
    (hu : f'.untyped = f.untyped)
  | inferred {e : Expr} {facts : TypeFacts} {g : Findings}
    (h : env.catalog.resolveType? d.type = none) (hd : d.default = some e)
    (ht : typeOf e env f = .ok (some facts, g))
    (hb : f'.context.bindings = f.context.bindings.bindScalar d.name facts)
    (hu : f'.untyped = f.untyped)
  | unknown (h : d.LeavesUntyped env f)
    (hb : f'.context.bindings =
      f.context.bindings.bindScalar d.name (env.catalog.resolveType d.type))
    (hu : f'.untyped = Text.fold d.name :: f.untyped)

/-- What an assignment comes to. -/
inductive Assigns (env : Env) (name : String) (value : Expr) (f f' : Findings) : Prop
  | typed (hs : (f.context.bindings.scalar? name).isSome = true) (hu : Text.fold name ∉ f.untyped)
    (h : f' = f)
  | untyped (h : typeOf value env f = .ok (none, f'))
  | types {facts : TypeFacts} {g : Findings} (h : typeOf value env f = .ok (some facts, g))
    (ho : f.context.bindings.scalar? name = none ∨ Text.fold name ∈ f.untyped)
    (hb : f'.context.bindings = f.context.bindings.bindScalar name facts)
    (hu : f'.untyped = f.untyped.filter (· ≠ Text.fold name))

theorem of_useType {reference : Reference} (h : useType reference env f = .ok ((), f')) :
    f'.context = f.context ∧ f'.untyped = f.untyped := by
  cases h
  dsimp only
  split <;> exact ⟨rfl, rfl⟩

theorem of_useUserType {facts : TypeFacts} (h : useUserType facts env f = .ok ((), f')) :
    f'.context = f.context ∧ f'.untyped = f.untyped := by
  unfold useUserType at h
  cases hu : facts.userType with
  | some name =>
    rw [hu] at h
    exact of_useType h
  | none =>
    rw [hu] at h
    cases h
    exact ⟨rfl, rfl⟩

theorem of_bindTableOfType {name : String} {type : Name} {records : List ColumnRecord}
    (h : bindTableOfType name type records env f = .ok ((), f')) :
    f'.context = { f.context with
      bindings :=
        f.context.bindings.bindTable name
          (.ofRecords env.catalog { table := some name } records) } ∧
      f'.untyped = f.untyped := by
  obtain ⟨_, _, hcatalog, h⟩ := run_bind_eq_ok.1 h
  cases hcatalog
  obtain ⟨_, _, hbind, h⟩ := run_bind_eq_ok.1 h
  cases hbind
  obtain ⟨_, _, hschema, h⟩ := run_bind_eq_ok.1 h
  cases hschema
  exact of_useType h

/-- A scalar variable is bound behind a note that its user-defined type is used. -/
private theorem of_bindScalar {name : String} {facts : TypeFacts}
    (h : (do useUserType facts; bindings (·.bindScalar name facts) : Walk Unit) env f =
      .ok ((), f')) :
    f'.context = { f.context with bindings := f.context.bindings.bindScalar name facts } ∧
    f'.untyped = f.untyped := by
  obtain ⟨_, f₁, huse, h⟩ := run_bind_eq_ok.1 h
  obtain ⟨hc, hu⟩ := of_useUserType huse
  cases h
  rw [← hc]
  exact ⟨rfl, hu⟩

theorem of_bindParameter {p : Parameter} (h : bindParameter p env f = .ok ((), f')) :
    f'.context = { f.context with
      bindings :=
        match env.catalog.tableTypeColumns? p.type.name with
        | some records =>
          f.context.bindings.bindTable p.name
            (.ofRecords env.catalog { table := some p.name } records)
        | none => f.context.bindings.bindScalar p.name (env.catalog.resolveType p.type) } ∧
      f'.untyped = f.untyped := by
  obtain ⟨_, _, hcatalog, h⟩ := run_bind_eq_ok.1 h
  cases hcatalog
  cases ht : env.catalog.tableTypeColumns? p.type.name with
  | some records =>
    simp only [ht] at h
    exact of_bindTableOfType h
  | none =>
    simp only [ht] at h
    obtain ⟨_, _, hcatalog, h⟩ := run_bind_eq_ok.1 h
    cases hcatalog
    exact of_bindScalar h

theorem of_declareVariable_of_table {d : VariableDeclaration} {records : List ColumnRecord}
    (ht : env.catalog.tableTypeColumns? d.type.name = some records)
    (h : declareVariable d env f = .ok ((), f')) :
    f'.context = { f.context with
      bindings :=
        f.context.bindings.bindTable d.name
          (.ofRecords env.catalog { table := some d.name } records) } ∧
      f'.untyped = f.untyped := by
  obtain ⟨_, _, hcatalog, h⟩ := run_bind_eq_ok.1 h
  cases hcatalog
  simp only [ht] at h
  exact of_bindTableOfType h

theorem of_declareTable {name : String} {columns : List ColumnDefinition}
    (h : declareTable name columns env f = .ok ((), f')) :
    f'.context = { f.context with
      bindings := f.context.bindings.bindTable name (.ofDefinitions env.catalog name columns) } ∧
      f'.untyped = f.untyped := by
  obtain ⟨_, _, hcatalog, h⟩ := run_bind_eq_ok.1 h
  cases hcatalog
  cases h
  exact ⟨rfl, rfl⟩

/-- What is asked of an analysis that keeps contexts changes nothing of what was found but
scopes and columns of CTEs. -/
theorem kept_of_ask {α : Type} {x : Nested → Analysis α} {a : α}
    (hx : ∀ n inProgress, Analysis.Keeps env Eq inProgress (x (Nested.within n)))
    (ha : f.context.Anchored)
    (h : ask x env f = .ok (a, f')) :
    ∃ c, f' = { f with context := c } ∧ Analysis.Kept Eq f.context c := by
  obtain ⟨c, hc, rfl⟩ := run_ask_eq_ok.1 h
  have hkept : Analysis.Kept Eq f.context
      ((x (f.context.depthWithin env.config.maxNestingDepth).nested).outcome env f.context).2 :=
    hx _ _ f.context rfl ha
  rw [hc] at hkept
  exact ⟨c, rfl, hkept⟩

/-- To find the type of an expression changes no binding. -/
theorem of_typeOf {e : Expr} {o : Option TypeFacts} (ha : f.context.Anchored)
    (h : typeOf e env f = .ok (o, f')) :
    f'.context.bindings = f.context.bindings ∧ f'.context.Anchored ∧ f'.untyped = f.untyped := by
  obtain ⟨column, f₁, hask, h⟩ := run_bind_eq_ok.1 h
  cases h
  obtain ⟨c, rfl, hkept⟩ := kept_of_ask (fun n inProgress => .expr env n inProgress e) ha hask
  exact ⟨hkept.bindings, hkept.anchored, rfl⟩

theorem of_bindUntyped {d : VariableDeclaration} {o : Option TypeFacts}
    (h : bindUntyped d o env f = .ok ((), f')) :
    f'.context = { f.context with
      bindings := f.context.bindings.bindScalar d.name (o.getD (env.catalog.resolveType d.type)) } ∧
      f'.untyped = if o.isSome then f.untyped else Text.fold d.name :: f.untyped := by
  cases o with
  | some facts =>
    cases h
    exact ⟨rfl, rfl⟩
  | none =>
    cases h
    exact ⟨rfl, rfl⟩

theorem of_declareVariable {d : VariableDeclaration} (ha : f.context.Anchored)
    (h : declareVariable d env f = .ok ((), f')) : Declares env d f f' ∧ f'.context.Anchored := by
  cases ht : env.catalog.tableTypeColumns? d.type.name with
  | some records =>
    obtain ⟨hc, hu⟩ := of_declareVariable_of_table ht h
    exact ⟨.table ht (hc ▸ rfl) hu, hc ▸ ha⟩
  | none =>
    obtain ⟨_, _, hcatalog, h⟩ := run_bind_eq_ok.1 h
    cases hcatalog
    simp only [ht] at h
    obtain ⟨_, _, hcatalog, h⟩ := run_bind_eq_ok.1 h
    cases hcatalog
    cases hk : env.catalog.resolveType? d.type with
    | some facts =>
      simp only [hk] at h
      obtain ⟨hc, hu⟩ := of_bindScalar h
      exact ⟨.known hk (hc ▸ rfl) hu, hc ▸ ha⟩
    | none =>
      simp only [hk] at h
      cases hd : d.default with
      | none =>
        simp only [hd] at h
        obtain ⟨hc, hu⟩ := of_bindUntyped h
        exact ⟨.unknown ⟨ht, hk, by simp [hd]⟩ (hc ▸ rfl) hu, hc ▸ ha⟩
      | some e =>
        simp only [hd] at h
        obtain ⟨o, g, htype, h⟩ := run_bind_eq_ok.1 h
        obtain ⟨hb, ha', hu'⟩ := of_typeOf ha htype
        obtain ⟨hc, hu⟩ := of_bindUntyped h
        cases o with
        | some facts =>
          refine ⟨.inferred hk hd htype ?_ ?_, hc ▸ ha'⟩
          · rw [hc, ← hb]
            rfl
          · rw [hu, ← hu']
            rfl
        | none =>
          refine ⟨.unknown ⟨ht, hk, ?_⟩ ?_ ?_, hc ▸ ha'⟩
          · intro e' he'
            cases hd.symm.trans he'
            exact ⟨g, htype⟩
          · rw [hc, ← hb]
            rfl
          · rw [hu, ← hu']
            rfl

theorem of_setVariable {name : String} {value : Expr} (ha : f.context.Anchored)
    (h : setVariable name value env f = .ok ((), f')) :
    Assigns env name value f f' ∧ f'.context.Anchored := by
  obtain ⟨_, _, hget, h⟩ := run_bind_eq_ok.1 h
  cases hget
  by_cases hopen :
    ((f.context.bindings.scalar? name).isSome && !f.untyped.contains (Text.fold name)) = true
  · rw [if_pos hopen] at h
    cases h
    rw [Bool.and_eq_true] at hopen
    exact ⟨.typed hopen.1 (by simpa using hopen.2) rfl, ha⟩
  · rw [if_neg hopen] at h
    obtain ⟨o, g, htype, h⟩ := run_bind_eq_ok.1 h
    obtain ⟨hb, ha', hu⟩ := of_typeOf ha htype
    cases o with
    | none =>
      cases h
      exact ⟨.untyped htype, ha'⟩
    | some facts =>
      cases h
      refine ⟨.types htype ?_ (hb ▸ rfl) (hu ▸ rfl), ha'⟩
      simpa [or_iff_not_imp_left, Option.isSome_iff_ne_none] using hopen

end Walk

end ResultShape
