import ResultShape.Proofs.Alike.Model
import ResultShape.Proofs.Text.Options
/-! Identifier case: routines that differ only in the case of their identifiers have models that
differ only in the case of the names in them. -/
namespace ResultShape

open Text

def ColumnSource.fold (s : ColumnSource) : ColumnSource :=
  { s with
    schema := s.schema.map Text.fold, table := s.table.map Text.fold,
    column := s.column.map Text.fold }

def Reference.fold (r : Reference) : Reference :=
  { r with
    catalog := r.catalog.map Text.fold, schema := r.schema.map Text.fold, name := Text.fold r.name }

def JsonInfo.fold (j : JsonInfo) : JsonInfo := { j with rootName := j.rootName.map Text.fold }

mutual

/-- The column with all names in it folded; its types are as they were. -/
def ResultColumn.fold : ResultColumn → ResultColumn
  | ⟨name, aliasName, aliasTable, source, sqlType, userType, isNullable, isAmbiguous, reference,
      aggregate, json, children⟩ =>
    ⟨Text.fold name, aliasName.map Text.fold, aliasTable.map Text.fold,
      source.map ColumnSource.fold, sqlType, userType, isNullable, isAmbiguous,
      reference.map Reference.fold, aggregate, json.map JsonInfo.fold,
      ResultColumn.foldAll children⟩

def ResultColumn.foldAll : List ResultColumn → List ResultColumn
  | [] => []
  | c :: cs => c.fold :: ResultColumn.foldAll cs

end

/-- The result set with all names in it folded, and without the fields of the document. -/
def ResultSet.fold (s : ResultSet) : ResultSet :=
  { s with
    columns := ResultColumn.foldAll s.columns
    jsonRootName := s.jsonRootName.map Text.fold
    jsonShape := []
    reference := s.reference.map Reference.fold }

def ExecutedRoutine.fold (e : ExecutedRoutine) : ExecutedRoutine :=
  ⟨e.catalog.map Text.fold, Text.fold e.schema, Text.fold e.name⟩

/-- The model with all names in it folded, apart from those of types. -/
def RoutineModel.fold (m : RoutineModel) : RoutineModel :=
  { m with
    resultSets := m.resultSets.map ResultSet.fold
    executedRoutines := m.executedRoutines.map ExecutedRoutine.fold }

/-- The routine with all its identifiers folded, apart from the names of types. -/
def Routine.fold (r : Routine) : Routine := r.rewrite { name := Text.fold }

namespace Likeness

/-- A routine and the routine with its identifiers folded. -/
def folding : Likeness where
  rewriting := { name := Text.fold }
  same a b := Text.fold a = Text.fold b
  holds _ := True
  allows _ := True

private theorem rel_of_map_fold_eq {o o' : Option String} (h : o.map Text.fold = o'.map Text.fold) :
    Option.Rel folding.same o o' := by
  cases o with
  | none =>
    cases o' with
    | none => exact .none
    | some b => cases h
  | some a =>
    cases o' with
    | none => cases h
    | some b => exact .some (Option.some.inj h)

private theorem fillFrom_alike {f f' : ForJson} (hf : f.Alike folding.same f') {cs cs' : List Char}
    (hcs : cs' = cs ∨ cs' = cs.map Char.toLower) :
    (f.fillFrom cs).Alike folding.same (f'.fillFrom cs') := by
  have hword (word : String) : ForJson.containsWord word cs = ForJson.containsWord word cs' := by
    obtain rfl | rfl := hcs
    · rfl
    · exact (ForJson.containsWord_fold word cs).symm
  have hroot : (ForJson.root? cs).map Text.fold = (ForJson.root? cs').map Text.fold := by
    obtain rfl | rfl := hcs
    · rfl
    · exact (ForJson.root?_fold cs).symm
  refine ⟨hf.mode, ?_, rel_or hf.rootName (rel_of_map_fold_eq hroot), ?_⟩
  · simp only [ForJson.fillFrom, hword, hf.withoutArrayWrapper]
  · simp only [ForJson.fillFrom, hword, hf.includeNullValues]

/-- The options that a query text adds do not depend on its case, but for the name of a root. -/
private theorem fill_alike (f : ForJson) (text : Option String) :
    (f.fill text).Alike folding.same (f.fill (text.map Text.fold)) := by
  have hsuffix : (text.map Text.fold).bind (fun s => ForJson.suffix? s.toList) =
      (text.bind fun s => ForJson.suffix? s.toList).map (List.map Char.toLower) := by
    cases text with
    | none => rfl
    | some s => simp only [Option.map_some, Option.bind_some, toList_fold, ForJson.suffix?_fold]
  have hall {texts texts' : List (List Char)}
      (h : List.Forall₂ (fun cs cs' => cs' = cs ∨ cs' = cs.map Char.toLower) texts texts')
      {f f' : ForJson} (hf : f.Alike folding.same f') :
      (texts.foldl ForJson.fillFrom f).Alike folding.same (texts'.foldl ForJson.fillFrom f') := by
    induction h generalizing f f' with
    | nil => exact hf
    | cons hcs _ ih => exact ih (fillFrom_alike hf hcs)
  unfold ForJson.fill
  dsimp only
  rw [hsuffix]
  refine hall (List.rel_append (List.forall₂_same.2 fun _ _ => .inl rfl) ?_) ⟨rfl, rfl, ?_, rfl⟩
  · exact forall₂_toList (rel_of_map _ (fun _ => .inr rfl) _)
  · exact rel_refl (R := folding.same) (fun _ => rfl) _

theorem lawful_folding (env : Env) : folding.Lawful env where
  keepsForm := ⟨fun _ => rfl, fun _ => rfl, fun _ => rfl, fun _ => rfl⟩
  meaning _ _ := rfl
  resolve_value _ _ := rfl
  name s := (fold_fold s).symm
  refl _ := rfl
  append ha hb := (fold_append _ _).trans ((congrArg₂ (· ++ ·) ha hb).trans (fold_append _ _).symm)
  fold_eq h := h
  fill := fill_alike
  untyped _ _ := trivial
  ambiguous := trivial
  written _ := trivial
  stored _ := trivial
  copied _ _ _ := trivial
  cast _ _ _ := trivial
  merged _ _ _ _ := trivial
  nullif _ _ := trivial
  jsonFragment _ _ := trivial
  widened _ _ _ := trivial

section

variable {s s' : ResultSet} {m m' : RoutineModel}

private theorem map_fold_eq {o o' : Option String} (h : Option.Rel folding.same o o') :
    o.map Text.fold = o'.map Text.fold := by
  cases h with
  | none => rfl
  | some h => exact congrArg some h

private theorem fold_source_eq {o o' : Option ColumnSource}
    (h : Option.Rel (ColumnSource.Alike folding.same) o o') :
    o.map ColumnSource.fold = o'.map ColumnSource.fold := by
  cases h with
  | none => rfl
  | some h =>
    simp only [Option.map_some, ColumnSource.fold, map_fold_eq h.schema, map_fold_eq h.table,
      map_fold_eq h.column, h.objectKind]

private theorem fold_reference_eq {r r' : Reference} (h : r.Alike folding.same r') :
    r.fold = r'.fold := by
  simp only [Reference.fold, h.kind, map_fold_eq h.catalog, map_fold_eq h.schema,
    Reference.mk.injEq, true_and]
  exact h.name

private theorem identity_eq {r r' : Reference} (h : r.Alike folding.same r') :
    r.identity = r'.identity := by
  have hpart {o o' : Option String} (ho : Option.Rel folding.same o o') :
      Text.fold (o.getD "") = Text.fold (o'.getD "") := rel_getD (R := folding.same) ho rfl
  rw [Reference.identity, Reference.identity, h.kind, hpart h.catalog, hpart h.schema]
  exact congrArg (_, _, _, ·) h.name

private theorem map_fold_reference_eq {o o' : Option Reference}
    (h : Option.Rel (Reference.Alike folding.same) o o') :
    o.map Reference.fold = o'.map Reference.fold := by
  cases h with
  | none => rfl
  | some h => exact congrArg some (fold_reference_eq h)

private theorem fold_json_eq {o o' : Option JsonInfo}
    (h : Option.Rel (JsonInfo.Alike folding.same) o o') :
    o.map JsonInfo.fold = o'.map JsonInfo.fold := by
  cases h with
  | none => rfl
  | some h =>
    simp only [Option.map_some, JsonInfo.fold, h.isArray, map_fold_eq h.rootName,
      h.includeNulls, h.isNested, h.shapeUnknown]

private theorem fold_column_eq {c c' : ResultColumn} (h : folding.Column c c') :
    c.fold = c'.fold := by
  induction c using ResultColumn.fold.induct
    (motive_2 := fun cs => ∀ {cs'}, List.Forall₂ folding.Column cs cs' →
      ResultColumn.foldAll cs = ResultColumn.foldAll cs') generalizing c' with
  | case1 name aliasName aliasTable source sqlType userType isNullable isAmbiguous reference
      aggregate json children ih =>
    obtain ⟨flat, -, hchildren⟩ := h
    cases c'
    rw [ResultColumn.fold, ResultColumn.fold, ResultColumn.mk.injEq]
    exact ⟨flat.name, map_fold_eq flat.aliasName, map_fold_eq flat.aliasTable,
      fold_source_eq flat.source, flat.sqlType,
      flat.userType, flat.isNullable, flat.isAmbiguous, map_fold_reference_eq flat.reference,
      flat.aggregate, fold_json_eq flat.json, ih hchildren⟩
  | case2 =>
    rename_i hcs
    cases hcs
    rfl
  | case3 c cs ihc ihcs =>
    rename_i hcs
    cases hcs with
    | cons hc hcs => rw [ResultColumn.foldAll, ResultColumn.foldAll, ihc hc, ihcs hcs]

private theorem fold_columns_eq {cs cs' : List ResultColumn}
    (h : List.Forall₂ folding.Column cs cs') :
    ResultColumn.foldAll cs = ResultColumn.foldAll cs' := by
  induction h with
  | nil => rfl
  | cons hc _ ih => rw [ResultColumn.foldAll, ResultColumn.foldAll, fold_column_eq hc, ih]

private theorem fold_set_eq (h : folding.Set s s') : s.fold = s'.fold := by
  simp only [ResultSet.fold, fold_columns_eq h.columns, h.returnsJson, h.returnsJsonArray,
    map_fold_eq h.jsonRootName,
    h.jsonIncludeNulls, h.jsonSingleRowGuaranteed, h.hasWildcardProjection,
    map_fold_reference_eq h.reference]

private theorem fold_model_eq (h : folding.Model m m') : m.fold = m'.fold := by
  have hexecuted (e e' : ExecutedRoutine) (he : e.Alike folding.same e') : e.fold = e'.fold := by
    simp only [ExecutedRoutine.fold, map_fold_eq he.catalog, ExecutedRoutine.mk.injEq, true_and]
    exact ⟨he.schema, he.name⟩
  simp only [RoutineModel.fold, map_eq_map h.resultSets fun _ _ => fold_set_eq,
    map_eq_map h.executedRoutines hexecuted, h.parameterTypes]

end

end Likeness

/-- Which references come first with their identity depends on the identities alone. -/
theorem Reference.identity_distinct_eq {rs rs' : List Reference}
    (h : rs.map identity = rs'.map identity)
    (seen : List Identity) :
    (distinct seen rs).map identity = (distinct seen rs').map identity := by
  induction rs generalizing rs' seen with
  | nil =>
    rw [List.map_nil, eq_comm, List.map_eq_nil_iff] at h
    rw [h]
  | cons r rs ih =>
    cases rs' with
    | nil => cases h
    | cons r' rs' =>
      obtain ⟨hr, hrs⟩ := List.cons_eq_cons.1 h
      rw [distinct, distinct, hr]
      split
      · exact ih hrs seen
      · rw [List.map_cons, List.map_cons, hr, ih hrs]

namespace Routine

/-- The model of a routine up to the case of names, and the identities of all that it depends on. -/
def foldedModel (catalog : Catalog) (config : Config) (r : Routine) :
    Except AnalysisError (RoutineModel × List Reference.Identity) :=
  (r.model catalog config).map fun m => (m.fold, m.dependencies.map Reference.identity)

private theorem foldedModel_fold (catalog : Catalog) (config : Config) (r : Routine) :
    r.fold.foldedModel catalog config = r.foldedModel catalog config := by
  have h := Likeness.lawful_folding ⟨catalog.withDefaultSchema config.defaultSchema, config⟩
  have hmodel := Likeness.model_alike h ⟨fun _ => rfl, fun _ => rfl⟩ r fun _ _ => trivial
  change Likeness.folding.Reports (r.model catalog config) (r.fold.model catalog config) at hmodel
  unfold foldedModel
  generalize r.model catalog config = x at hmodel
  generalize r.fold.model catalog config = y at hmodel
  cases hmodel with
  | error e => rfl
  | @ok m m' hm =>
    have hmentions : m'.mentions.map Reference.identity = m.mentions.map Reference.identity :=
      (map_eq_map (Likeness.mentions_alike h hm) fun _ _ => Likeness.identity_eq).symm
    have hdependencies :
        m'.dependencies.map Reference.identity = m.dependencies.map Reference.identity :=
      Reference.identity_distinct_eq hmentions []
    simp only [Except.map, Likeness.fold_model_eq hm, hdependencies]

/-- Routines that differ only in the case of their identifiers fail alike, or have models that
differ only in the case of names, with the same dependencies. -/
theorem foldedModel_eq_of_fold_eq (catalog : Catalog) (config : Config) {r r' : Routine}
    (h : r.fold = r'.fold) :
    r.foldedModel catalog config = r'.foldedModel catalog config := by
  rw [← foldedModel_fold, h, foldedModel_fold]

theorem foldedModel_eq_of_fold_eq_orders :
    let select (table column o name : String) : Routine :=
      let q : Query :=
        ⟨.select ⟨false, none, [.expr (.column ⟨none, some o, column⟩) (some name)], none,
          [.named (.bare table) (some o)], none, [], none⟩, [], [], none, none⟩
      ⟨.procedure, .bare "p", [], [.action (.select q)], none, none⟩
    let r := select "ORDERS" "ID" "O" "X"
    let r' := select "Orders" "Id" "o" "x"
    r.fold = r'.fold ∧
      (r.model (.builtinOnly {}) {}).map (·.resultSets.map (·.columnNames)) = .ok [["X"]] ∧
      r.foldedModel (.builtinOnly {}) {} = r'.foldedModel (.builtinOnly {}) {} := by
  intro select r r'
  have hfold (table column o name : String) : (select table column o name).fold =
      { select (Text.fold table) (Text.fold column) (Text.fold o) (Text.fold name) with
        name := .bare (Text.fold "p") } := rfl
  have hnames : Text.fold "ORDERS" = Text.fold "Orders" ∧ Text.fold "ID" = Text.fold "Id" ∧
      Text.fold "O" = Text.fold "o" ∧ Text.fold "X" = Text.fold "x" := by decide
  have h : r.fold = r'.fold := by
    rw [hfold, hfold, hnames.1, hnames.2.1, hnames.2.2.1, hnames.2.2.2]
  exact ⟨h, rfl, foldedModel_eq_of_fold_eq _ _ h⟩

end Routine

end ResultShape
