import ResultShape.Proofs.Routine.Frame
import ResultShape.Proofs.Routine.Idle
import ResultShape.Proofs.Scope.Columns
/-! The return table of a table function: the name is bound to the declared columns before the body,
and no action takes that away but one that makes a table of this name. So the rows that are sent
last are the declared ones. -/
namespace ResultShape

open Analysis

/-- The action makes a table of this name; a declaration of variables does by a table type. -/
def Action.makesTable (catalog : Catalog) (name : String) : Action → Bool
  | .declare declarations =>
    declarations.any fun d =>
      Text.same d.name name && (catalog.tableTypeColumns? d.type.name).isSome
  | a => a.tables.any (Text.same · name)

/-- The column of a returned table as it is declared; it may be null unless the
declaration says otherwise. -/
def ColumnDefinition.returned (catalog : Catalog) (table : String) (d : ColumnDefinition) :
    ResultColumn where
  name := d.name
  aliasTable := some table
  source := some { table := some table, column := some d.name }
  sqlType := some (catalog.resolveType d.type).sqlType
  userType := (catalog.resolveType d.type).userType
  isNullable := some (d.nullable.getD true)

theorem Bindings.table?_bindTable_of_ne {name other : String} (h : Text.same other name = false)
    (b : Bindings)
    (columns : ColumnMap) : (b.bindTable other columns).table? name = b.table? name :=
  (Keyed.get?_insert ..).trans
    (if_neg fun he => Bool.false_ne_true (h.symm.trans (Text.same_iff.2 he)))

namespace Walk

variable {env : Env} {name : String} {columns : ColumnMap}

/-- Under the name the routine has this table. -/
def HasTable (name : String) (columns : ColumnMap) : Findings → Prop :=
  Bound fun b _ => b.table? name = some columns

private theorem hasTable_declareVariable {d : VariableDeclaration}
    (h : (Text.same d.name name && (env.catalog.tableTypeColumns? d.type.name).isSome) = false) :
    Stays (HasTable name columns) env (fun _ => True) (declareVariable d) := by
  rintro f ⟨ha, hf⟩ _ f' hd
  obtain ⟨hdeclares, ha'⟩ := of_declareVariable ha hd
  refine ⟨trivial, ha', ?_⟩
  cases hdeclares with
  | table ht hb =>
    rw [ht, Option.isSome_some, Bool.and_true] at h
    rw [hb, Bindings.table?_bindTable_of_ne h]
    exact hf
  | known _ hb => exact hb ▸ hf
  | inferred _ _ _ hb => exact hb ▸ hf
  | unknown _ hb => exact hb ▸ hf

private theorem hasTable_setVariable (assigned : String) (value : Expr) :
    Stays (HasTable name columns) env (fun _ => True) (setVariable assigned value) := by
  rintro f ⟨ha, hf⟩ _ f' hs
  obtain ⟨hassigns, ha'⟩ := of_setVariable ha hs
  refine ⟨trivial, ha', ?_⟩
  cases hassigns with
  | typed _ _ he => exact he ▸ hf
  | untyped ht => exact (of_typeOf ha ht).1 ▸ hf
  | types _ _ hb => exact hb ▸ hf

/-- A table stays what it is through every action that makes none of its name. -/
theorem hasTable_action (returnsTable : Bool) {a : Action}
    (h : a.makesTable env.catalog name = false) :
    Stays (HasTable name columns) env (fun _ => True) (action returnsTable a) := by
  by_cases ha : a.bindsVariables = false
  · have htables : a.tables.any (Text.same · name) = false := by
      cases a <;> first | exact h | rfl
    refine bound_action returnsTable ha fun table ht b _ made hb => ?_
    have hne : Text.same table name = false :=
      Bool.eq_false_iff.2 (List.any_eq_false.1 htables table ht)
    exact (Bindings.table?_bindTable_of_ne hne b made).trans hb
  · cases a with
    | declare declarations =>
      exact .forM fun d hd =>
        hasTable_declareVariable (Bool.eq_false_iff.2 (List.any_eq_false.1 h d hd))
    | set assigned value => exact hasTable_setVariable assigned value
    | _ => exact absurd rfl ha

/-- So it does through a body, in whatever blocks and branches its actions stand. -/
theorem hasTable_statements (returnsTable : Bool) {ss : List Statement}
    (h : ∀ a ∈ Statement.actionsAll ss, a.makesTable env.catalog name = false) :
    Stays (HasTable name columns) env (fun _ => True) (statements returnsTable ss) := by
  rw [statements_eq_forM]
  exact .forM fun a ha => .bind (.modify fun _ hf => hf) fun _ _ =>
    hasTable_action returnsTable (h a ha)

theorem of_returnTable {f f' : Findings} (hf : f.context.bindings.table? name = some columns)
    (h : returnTable name env f = .ok ((), f')) :
    f'.model.resultSets =
      f.model.resultSets ++ [{ columns := columns.values.map (·.project name false) }] := by
  obtain ⟨_, _, hget, h⟩ := run_bind_eq_ok.1 h
  cases hget
  simp only [hf] at h
  cases h
  rfl

end Walk

/-- Distinct columns are read from a declared table as they are declared, and in that order. -/
theorem ColumnMap.project_ofDefinitions (catalog : Catalog) (name : String)
    {definitions : List ColumnDefinition} (h : (definitions.map fun d => Text.fold d.name).Nodup) :
    (ColumnMap.ofDefinitions catalog name definitions).values.map (·.project name false) =
      definitions.map (·.returned catalog name) := by
  have hnames :
      ((definitions.map (ColumnInfo.ofDefinition catalog name)).map fun i =>
        Text.fold i.name).Nodup := by
    rwa [List.map_map]
  rw [ColumnMap.ofDefinitions, ColumnMap.values_ofInfos hnames, List.map_map]
  rfl

/-- A walk over a routine sends the declared columns of its return table last. -/
private theorem Walk.of_routine_returning (env : Env) {r : Routine} {f : Findings} {name : String}
    {definitions : List ColumnDefinition} (ht : r.returnTable = some (name, definitions))
    (hdistinct : (definitions.map fun d => Text.fold d.name).Nodup)
    (hbody : ∀ a ∈ r.actions, a.makesTable env.catalog name = false)
    (h : routine r env {} = .ok ((), f)) :
    ∃ before, f.model.resultSets =
      before ++ [{ columns := definitions.map (·.returned env.catalog name) }] := by
  obtain ⟨_, f₁, hparameters, h⟩ := run_bind_eq_ok.1 h
  simp only [ht] at h
  obtain ⟨_, f₂, hdeclare, h⟩ := run_bind_eq_ok.1 h
  obtain ⟨_, f₃, hstatements, hreturn⟩ := run_bind_eq_ok.1 h
  have hdeclared : HasTable name (.ofDefinitions env.catalog name definitions) f₂ := by
    rw [HasTable, Bound, (of_declareTable hdeclare).1]
    exact ⟨(Findings.Idle.start.bindParameters hparameters).anchored, Bindings.table?_bindTable ..⟩
  obtain ⟨-, -, hend⟩ := hasTable_statements _ hbody f₂ hdeclared () f₃ hstatements
  refine ⟨f₃.model.resultSets, ?_⟩
  rw [of_returnTable hend hreturn, ColumnMap.project_ofDefinitions env.catalog name hdistinct]

/-- If no action of the body makes a table of its name, the table that a routine returns is its last
result set: the declared columns in declared order, whatever the body does. -/
theorem Routine.model_returns_declared_table {catalog : Catalog} {config : Config} {r : Routine}
    {m : RoutineModel}
    {name : String} {definitions : List ColumnDefinition}
    (ht : r.returnTable = some (name, definitions))
    (hdistinct : (definitions.map fun d => Text.fold d.name).Nodup)
    (hbody : ∀ a ∈ r.actions,
      a.makesTable (catalog.withDefaultSchema config.defaultSchema) name = false)
    (h : r.model catalog config = .ok m) :
    ∃ before, m.resultSets = before ++
      [{ columns := definitions.map
          (·.returned (catalog.withDefaultSchema config.defaultSchema) name) }] := by
  let env : Env := ⟨catalog.withDefaultSchema config.defaultSchema, config⟩
  cases hw : Walk.routine r env {} with
  | error e =>
    rw [model, hw] at h
    cases h
  | ok p =>
    rw [model, hw] at h
    cases h
    exact Walk.of_routine_returning env ht hdistinct hbody hw

namespace Returned

def catalog : Catalog := .builtinOnly {}

def config : Config := {}

def definitions : List ColumnDefinition :=
  [⟨"Id", .bare "int", some false⟩, ⟨"Total", .bare "decimal", none⟩]

/-- `SELECT 1 AS Id INTO target`. -/
def selectOne (target : Option String) : Action :=
  .select ⟨.select ⟨false, none, [.expr (.literal (.int 1)) (some "Id")], target, [], none, [],
    none⟩, [], [], none, none⟩

/-- A function that returns the table, with a query that fills another table, one that sends rows,
and a variable of the same name. -/
def routine : Routine :=
  ⟨.tableFunction, .bare "f", [],
    [.block [.action (selectOne (some "#r")), .action (selectOne none)],
      .action (.declare [⟨"@R", .bare "int", none⟩])],
    some ("@r", definitions), none⟩

end Returned

open Returned in
theorem Routine.model_returns_declared_table_among_others :
    ∃ m, routine.model catalog config = .ok m ∧ ∃ before, m.resultSets = before ++
      [{ columns := definitions.map
          (·.returned (catalog.withDefaultSchema config.defaultSchema) "@r") }] := by
  obtain ⟨m, hm⟩ : ∃ m, routine.model catalog config = .ok m := ⟨_, rfl⟩
  exact ⟨m, hm, model_returns_declared_table rfl (by decide) (by decide) hm⟩

end ResultShape
