import ResultShape.Proofs.Routine.NestingLimit
/-! Settings of an analysis: which of them the model of a routine depends on, and which it takes
from the settings that the catalog was made with. -/
namespace ResultShape

namespace Catalog

theorem systemSchema_withDefaultSchema (c : Catalog) (schema : String) :
    (c.withDefaultSchema schema).systemSchema = c.systemSchema := rfl

theorem scalarType?_qualified (c : Catalog) (schema name : String) :
    c.scalarType? (.qualified schema name) =
      (c.snapshot.scalarTypes.get? (Name.keyOf schema name)).map (·.facts) :=
  Option.map_eq_bind.symm

/-- A type that is named with a schema and without facets. -/
theorem resolveType_user (c : Catalog) (schema name : String) :
    c.resolveType (.user schema name) =
      if Text.same schema c.systemSchema then { sqlType := .builtin name none none none }
      else
        ((c.snapshot.scalarTypes.get? (Name.keyOf schema name)).map (·.facts)).getD
          { sqlType := .verbatim (Name.qualified schema name).text } := by
  have hbuiltin : c.isBuiltin (.qualified schema name) = Text.same schema c.systemSchema := rfl
  simp only [resolveType, resolveType?, DataType.user, resolve?, hbuiltin, scalarType?_qualified]
  split
  · rfl
  · cases (c.snapshot.scalarTypes.get? (Name.keyOf schema name)).map (·.facts) <;> rfl

/-- In its system schema, and in no other one, a catalog takes `int` for the built-in type. -/
theorem resolveType_int_iff (c : Catalog) (schema : String) :
    ((c.resolveType (.user schema "int")).sqlType = .int ∧
      (c.resolveType (.user schema "int")).userType = none) ↔
      Text.same schema c.systemSchema = true := by
  rw [resolveType_user]
  by_cases hs : Text.same schema c.systemSchema = true
  · rw [if_pos hs]
    exact iff_of_true ⟨by decide, rfl⟩ hs
  · rw [if_neg hs]
    refine iff_of_false ?_ hs
    rintro ⟨hint, huser⟩
    cases hr : c.snapshot.scalarTypes.get? (Name.keyOf schema "int") with
    | none =>
      -- The text of a name with a schema is longer than the name.
      rw [hr] at hint
      have hlength := congrArg (fun t => t.base.length) hint
      simp [SqlType.verbatim, SqlType.int, Name.text, Name.qualified] at hlength
    | some record =>
      rw [hr] at huser
      cases huser

end Catalog

namespace Routine

/-- The model of a routine depends on the catalog through its answers only, and of the settings on
the default schema, the fallback and the limit only. -/
theorem model_eq_of_answersLike {catalog catalog' : Catalog} {config config' : Config}
    (hc : (catalog.withDefaultSchema config.defaultSchema).AnswersLike
      (catalog'.withDefaultSchema config'.defaultSchema))
    (hf : config.jsonTextFallback = config'.jsonTextFallback)
    (hl : config.maxNestingDepth = config'.maxNestingDepth) (r : Routine) :
    r.model catalog config = r.model catalog' config' := by
  let env : Env := ⟨catalog.withDefaultSchema config.defaultSchema, config⟩
  let env' : Env := ⟨catalog'.withDefaultSchema config'.defaultSchema, config'⟩
  have h : env.FitsIn env' := ⟨hc, hc.defaultSchema, hf, Nat.le_of_eq hl⟩
  have h' : env'.FitsIn env := ⟨hc.symm, hc.defaultSchema.symm, hf.symm, Nat.le_of_eq hl.symm⟩
  -- A walk that only one of the environments stops would be stopped in both.
  have hwalk : Walk.routine r env {} = Walk.routine r env' {} := by
    rcases Walk.StoppedOrSame.routine h r {} with hs | he
    · rcases Walk.StoppedOrSame.routine h' r {} with hs' | he'
      · rw [hs, hs', hl]
      · exact he'.symm
    · exact he
  exact congrArg (fun walked => walked.map fun p => p.2.model) hwalk

/-- The number of workers makes no difference to a model. -/
theorem model_withParallelism (catalog : Catalog) (config : Config) (workers : Nat) (r : Routine) :
    r.model catalog { config with parallelism := workers } = r.model catalog config := by
  refine model_eq_of_answersLike ?_ ?_ ?_ r
  · exact .refl _
  · rfl
  · rfl

/-- A procedure whose only rows are those of its return table, with one column of
the type `int` of a schema. -/
def returningInt (schema : String) : Routine :=
  ⟨.procedure, .bare "p", [], [], some ("@t", [⟨"c", .user schema "int", none⟩]), none⟩

theorem model_returningInt (schema : String) (catalog : Catalog) (config : Config) :
    let definition : ColumnDefinition := ⟨"c", .user schema "int", none⟩
    let info :=
      ColumnInfo.ofDefinition (catalog.withDefaultSchema config.defaultSchema) "@t" definition
    (returningInt schema).model catalog config =
      .ok { resultSets := [{ columns := [info.project "@t" false] }] } :=
  rfl

/-- Two catalogs that give the procedure one model agree on whether its type is the built-in one. -/
theorem same_systemSchema_of_returningInt {schema : String} (catalog catalog' : Catalog)
    {config config' : Config}
    (h : (returningInt schema).model catalog config = (returningInt schema).model catalog' config')
    (hs : Text.same schema catalog.systemSchema = true) :
    Text.same schema catalog'.systemSchema = true := by
  rw [model_returningInt, model_returningInt] at h
  simp only [ColumnInfo.project, ColumnInfo.ofDefinition, Except.ok.injEq, RoutineModel.mk.injEq,
    List.cons.injEq, ResultSet.mk.injEq, ResultColumn.mk.injEq, Option.some.injEq, and_true,
    true_and] at h
  rw [← Catalog.systemSchema_withDefaultSchema, ← Catalog.resolveType_int_iff] at hs ⊢
  rwa [← h.1, ← h.2]

/-- An analysis takes from the settings that the catalog was made with the system schema, and
nothing else. So they make no difference, whatever the routine, exactly if they have the system
schema of the settings of the analysis. -/
theorem model_ofSnapshot (s : Snapshot) (made config : Config) :
    (∀ r : Routine, r.model (.ofSnapshot s made) config =
      r.model (.ofSnapshot s { config with systemSchema := made.systemSchema })
        { config with systemSchema := made.systemSchema }) ∧
    ((∀ r : Routine, r.model (.ofSnapshot s made) config = r.model (.ofSnapshot s config) config) ↔
      Text.same made.systemSchema config.systemSchema = true) := by
  refine ⟨fun r => ?_, fun h => ?_, fun h r => ?_⟩
  · refine model_eq_of_answersLike ?_ ?_ ?_ r
    · exact ⟨rfl, rfl, rfl⟩
    · rfl
    · rfl
  · have hown : Text.same made.systemSchema made.systemSchema = true := beq_self_eq_true _
    exact same_systemSchema_of_returningInt (.ofSnapshot s made) (.ofSnapshot s config) (h _) hown
  · refine model_eq_of_answersLike ?_ ?_ ?_ r
    · exact ⟨rfl, rfl, beq_iff_eq.1 h⟩
    · rfl
    · rfl

/-- In a catalog that was made with another system schema `sys.int` is not the built-in type. -/
theorem model_ofSnapshot_differs :
    (returningInt "sys").model (.ofSnapshot {} { systemSchema := "types" }) {} ≠
      (returningInt "sys").model (.ofSnapshot {} {}) {} := by
  intro h
  have hown : Text.same "sys" "sys" = true := by decide
  have hother := same_systemSchema_of_returningInt _ _ h.symm hown
  exact absurd hother (by decide)

end Routine

end ResultShape
