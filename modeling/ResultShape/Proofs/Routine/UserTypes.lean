import ResultShape.Proofs.Alike.Model
/-! User-defined types: a column or a variable that reports one has the type that it stands for. -/
namespace ResultShape

/-- A type reference that is written in the routine, or stored with a column of the catalog. -/
inductive Routine.RefersTo (catalog : Catalog) (r : Routine) : DataType → Prop where
  | written {t : DataType} (h : .dataType t ∈ r.constructs) : RefersTo catalog r t
  | stored {c : ColumnRecord} (h : catalog.Lists c) :
      RefersTo catalog r ⟨c.type, c.maxLength, c.precision, c.scale⟩

/-- One reference comes to both the type and the user-defined type. -/
def Routine.Resolves (catalog : Catalog) (r : Routine) (sqlType : Option SqlType)
    (userType : Name) : Prop :=
  ∃ t facts, r.RefersTo catalog t ∧ catalog.resolveType? t = some facts ∧
    sqlType = some facts.sqlType ∧
    facts.userType = some userType

/-- The routine that breaks off after so many of its actions. -/
def Routine.upTo (n : Nat) (r : Routine) : Routine :=
  { r with body := (r.actions.take n).map .action }

namespace Routine

variable {catalog : Catalog} {r : Routine}

private theorem RefersTo.resolves {t : DataType} (h : r.RefersTo catalog t) {userType : Name}
    (hu : (catalog.resolveType t).userType = some userType) :
    r.Resolves catalog (some (catalog.resolveType t).sqlType) userType := by
  unfold Catalog.resolveType at hu ⊢
  cases ht : catalog.resolveType? t with
  | none =>
    rw [ht] at hu
    cases hu
  | some facts =>
    rw [ht] at hu
    exact ⟨t, facts, h, ht, rfl, hu⟩

/-- Types that one reference of the routine comes to stay together. -/
private theorem kept_resolves (r : Routine) (env : Env) :
    ValueFacts.Kept env (· ∈ r.constructs)
      (fun f => ∀ u, f.userType = some u → r.Resolves env.catalog f.sqlType u) where
  untyped _ hnone u hu := by
    rw [hnone] at hu
    cases hu
  ambiguous := nofun
  written ht _ hu := RefersTo.resolves (.written ht) hu
  stored hr _ hu := RefersTo.resolves (.stored hr) hu
  copied h _ _ := h
  cast _ ht _ _ hu := RefersTo.resolves (.written ht) hu
  merged {f} _ h sqlType isNullable u hu := by
    dsimp only at hu ⊢
    split at hu
    · rename_i hsame
      exact hsame ▸ h u hu
    · cases hu
  nullif _ h := h
  jsonFragment _ _ := nofun
  widened _ h _ := h

private theorem constructs_upTo_subset (n : Nat) (r : Routine) :
    (r.upTo n).constructs ⊆ r.constructs := by
  have hactions : (r.upTo n).actions = r.actions.take n := Statement.actionsAll_map_action _
  intro k hk
  rw [constructs, hactions] at hk
  rcases List.mem_append.1 hk with hk | hk
  · exact List.mem_append_left _ hk
  · obtain ⟨a, ha, hk⟩ := List.mem_flatMap.1 hk
    exact List.mem_append_right _ (List.mem_flatMap.2 ⟨a, List.mem_of_mem_take ha, hk⟩)

/-- To return a table at the end changes nothing that a walk depends on. -/
private theorem run_returnTable (env : Env) (g : Findings) (name : String) :
    ∃ g', Walk.returnTable name env g = .ok ((), g') ∧ g'.context = g.context := by
  have hget : (get : Walk Findings) env g = .ok (g, g) := rfl
  unfold Walk.returnTable
  rw [Walk.run_bind_of_ok hget]
  cases g.context.bindings.table? name with
  | none => exact ⟨g, rfl, rfl⟩
  | some columns => exact ⟨_, rfl, rfl⟩

/-- A walk that comes to an end has passed, behind any number of its actions, through the context
in which the routine that breaks off there ends; from it the other actions are walked. -/
theorem exists_walk_upTo {env : Env} {f : Findings} (h : Walk.routine r env {} = .ok ((), f))
    (n : Nat) :
    ∃ g g' f', Walk.routine (r.upTo n) env {} = .ok ((), g') ∧ g'.context = g.context ∧
      Walk.statements (r.kind == .tableFunction) ((r.actions.drop n).map .action) env g =
        .ok ((), f') ∧ f'.context = f.context := by
  obtain ⟨_, f₁, hparameters, h⟩ := Walk.run_bind_eq_ok.1 h
  have hsplit {f₂ f' : Findings}
      (h : Walk.statements (r.kind == .tableFunction) r.body env f₂ = .ok ((), f')) :
      ∃ g, Walk.statements (r.kind == .tableFunction) (r.upTo n).body env f₂ = .ok ((), g) ∧
        Walk.statements (r.kind == .tableFunction) ((r.actions.drop n).map .action) env g =
          .ok ((), f') := by
    rw [Walk.statements_split _ _ n] at h
    obtain ⟨_, g, htake, hdrop⟩ := Walk.run_bind_eq_ok.1 h
    exact ⟨g, htake, hdrop⟩
  have hopened : (r.upTo n).returnTable = r.returnTable := rfl
  cases ht : r.returnTable with
  | none =>
    simp only [ht] at h
    obtain ⟨_, f', hbody, hend⟩ := Walk.run_bind_eq_ok.1 h
    obtain ⟨g, htake, hdrop⟩ := hsplit hbody
    refine ⟨g, g, f', ?_, rfl, hdrop, by cases hend; rfl⟩
    refine Walk.run_bind_eq_ok.2 ⟨_, f₁, hparameters, ?_⟩
    simp only [hopened, ht]
    exact Walk.run_bind_eq_ok.2 ⟨_, g, htake, rfl⟩
  | some t =>
    simp only [ht] at h
    obtain ⟨_, f₂, hdeclare, h⟩ := Walk.run_bind_eq_ok.1 h
    obtain ⟨_, f', hbody, hend⟩ := Walk.run_bind_eq_ok.1 h
    obtain ⟨g, htake, hdrop⟩ := hsplit hbody
    obtain ⟨g', hreturn, hcontext⟩ := run_returnTable env g t.1
    obtain ⟨f'', hreturn', hcontext'⟩ := run_returnTable env f' t.1
    cases hend.symm.trans hreturn'
    refine ⟨g, g', f', ?_, hcontext, hdrop, hcontext'.symm⟩
    refine Walk.run_bind_eq_ok.2 ⟨_, f₁, hparameters, ?_⟩
    simp only [hopened, ht]
    exact Walk.run_bind_eq_ok.2
      ⟨_, f₂, hdeclare, Walk.run_bind_eq_ok.2 ⟨_, g, htake, hreturn⟩⟩

/-- No column of a model, at any depth, and no variable, at any place in the body, is reported with
a user-defined type and another type than the one that this stands for. -/
theorem userType_resolves (catalog : Catalog) (config : Config) (r : Routine) :
    let env : Env := ⟨catalog.withDefaultSchema config.defaultSchema, config⟩
    (∀ m, r.model catalog config = .ok m → ∀ c, m.HasColumn c → ∀ u, c.userType = some u →
      r.Resolves env.catalog c.sqlType u) ∧
    ∀ n f, Walk.routine (r.upTo n) env {} = .ok ((), f) →
      ∀ name facts, f.context.bindings.scalar? name = some facts →
      ∀ u, facts.userType = some u → r.Resolves env.catalog (some facts.sqlType) u := by
  intro env
  have h := kept_resolves r env
  refine ⟨fun m hm c hc u hu => h.model (fun _ hk => hk) hm hc u hu,
    fun n f hw name facts hn u hu => ?_⟩
  exact (h.walk (r.constructs_upTo_subset n) hw).2 name facts hn u hu

namespace CodeParameter

def record : ScalarTypeRecord := ⟨none, "dbo", "Code", "varchar", some 8, none, none, some false⟩

def env : Env := ⟨.ofSnapshot (Snapshot.addScalarType {} record) {}, {}⟩

/-- A procedure with a parameter of the user-defined type, which sends a value cast to that type. -/
def routine : Routine :=
  let value : Expr := .cast .cast (.literal (.int 1)) (.user "dbo" "Code")
  let q : Query :=
    ⟨.select ⟨false, none, [.expr value (some "c")], none, [], none, [], none⟩, [], [], none, none⟩
  ⟨.procedure, .bare "p", [⟨"@c", .user "dbo" "Code", false, false⟩],
    [.action (.select q)], none, none⟩

def column : ResultColumn :=
  { name := "c", aliasName := some "c", sqlType := some record.facts.sqlType,
    userType := record.facts.userType
    isNullable := some false }

def reported : RoutineModel :=
  ⟨[{ columns := [column] }], [], [.ofName .userDefinedType (.qualified "dbo" "Code")]⟩

end CodeParameter

open CodeParameter in
theorem userType_resolves_parameter :
    (∃ m, routine.model env.catalog {} = .ok m ∧ m.HasColumn column ∧
      routine.Resolves env.catalog column.sqlType (.qualified "dbo" "Code")) ∧
    ∃ f, Walk.routine (routine.upTo 0) env {} = .ok ((), f) ∧
      f.context.bindings.scalar? "@c" = some record.facts ∧
      routine.Resolves env.catalog (some record.facts.sqlType) (.qualified "dbo" "Code") := by
  obtain ⟨hcolumns, hvariables⟩ := userType_resolves env.catalog {} routine
  have hm : routine.model env.catalog {} = .ok reported := by rfl
  have hc : reported.HasColumn column := ⟨_, .head _, _, .head _, .self⟩
  have hscalar : (Walk.routine (routine.upTo 0) env {}).map (·.2.context.bindings.scalar? "@c") =
      .ok (some record.facts) := by rfl
  refine ⟨⟨_, hm, hc, hcolumns _ hm _ hc _ rfl⟩, ?_⟩
  cases hw : Walk.routine (routine.upTo 0) env {} with
  | error e =>
    rw [hw] at hscalar
    cases hscalar
  | ok p =>
    rw [hw] at hscalar
    have hs := Except.ok.inj hscalar
    exact ⟨p.2, rfl, hs, hvariables 0 p.2 hw "@c" _ hs _ rfl⟩

end Routine

end ResultShape
