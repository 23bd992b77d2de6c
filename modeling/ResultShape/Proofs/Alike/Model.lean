import ResultShape.Dependency
import ResultShape.Proofs.Alike.Routine
/-! Alike models: what two analyses that go alike report, and what is known of every
column that one of them reports. -/
namespace ResultShape

/-- A column, or a column inside it at any depth. -/
inductive ResultColumn.Within (d : ResultColumn) : ResultColumn → Prop where
  | self : Within d d
  | child {c e : ResultColumn} (h : e ∈ c.children) (hd : Within d e) : Within d c

/-- A column of a result set of the model, at any depth. -/
def RoutineModel.HasColumn (m : RoutineModel) (d : ResultColumn) : Prop :=
  ∃ set ∈ m.resultSets, ∃ c ∈ set.columns, d.Within c

namespace Likeness

variable {L : Likeness} {env : Env}

section Mentions

variable (h : L.Lawful env)

include h

private theorem ownMentions_alike {c c' : ResultColumn} (hc : c.Alike L.same c') :
    List.Forall₂ (Reference.Alike L.same) c.ownMentions c'.ownMentions := by
  have hobject : Option.Rel (Reference.Alike L.same) (c.source.bind ColumnSource.object?)
      (c'.source.bind ColumnSource.object?) := by
    refine rel_bind hc.source fun s s' hs => ?_
    unfold ColumnSource.object?
    rw [hs.objectKind]
    refine rel_bind (rel_refl (fun _ => rfl) _) ?_
    rintro kind _ rfl
    exact rel_bind hs.table fun _ _ ht => .some ⟨rfl, .none, hs.schema, ht⟩
  have htype :
      Option.Rel (Reference.Alike L.same) (c.userType.map (Reference.ofName .userDefinedType))
      (c'.userType.map (Reference.ofName .userDefinedType)) := by
    rw [hc.userType]
    exact rel_refl (fun r => ⟨rfl, rel_refl h.refl _, rel_refl h.refl _, h.refl _⟩) _
  exact List.rel_append (List.rel_append (forall₂_toList hc.reference) (forall₂_toList hobject))
    (forall₂_toList htype)

private theorem mentions_column_alike {c c' : ResultColumn} (hc : L.Column c c') :
    List.Forall₂ (Reference.Alike L.same) c.mentions c'.mentions := by
  induction c using ResultColumn.mentions.induct
    (motive_2 := fun cs => ∀ {cs'}, List.Forall₂ L.Column cs cs' →
      List.Forall₂ (Reference.Alike L.same) (ResultColumn.mentionsOfAll cs)
        (ResultColumn.mentionsOfAll cs'))
    generalizing c' with
  | case1 name aliasName aliasTable source sqlType userType isNullable isAmbiguous reference
      aggregate json children ih =>
    obtain ⟨flat, -, hchildren⟩ := hc
    cases c'
    rw [ResultColumn.mentions, ResultColumn.mentions]
    exact List.rel_append (ownMentions_alike h flat) (ih hchildren)
  | case2 =>
    rename_i hcs
    cases hcs
    rw [ResultColumn.mentionsOfAll]
    exact .nil
  | case3 c cs ihc ihcs =>
    rename_i hcs
    cases hcs with
    | cons hc hcs =>
      rw [ResultColumn.mentionsOfAll, ResultColumn.mentionsOfAll]
      exact List.rel_append (ihc hc) (ihcs hcs)

private theorem mentionsOfAll_alike {cs cs' : List ResultColumn}
    (hcs : List.Forall₂ L.Column cs cs') :
    List.Forall₂ (Reference.Alike L.same) (ResultColumn.mentionsOfAll cs)
      (ResultColumn.mentionsOfAll cs') := by
  induction hcs with
  | nil =>
    rw [ResultColumn.mentionsOfAll]
    exact .nil
  | cons hc _ ih =>
    rw [ResultColumn.mentionsOfAll, ResultColumn.mentionsOfAll]
    exact List.rel_append (mentions_column_alike h hc) ih

/-- Alike models mention the same objects, if perhaps by other names. -/
theorem mentions_alike {m m' : RoutineModel} (hm : L.Model m m') :
    List.Forall₂ (Reference.Alike L.same) m.mentions m'.mentions := by
  have hset (s s' : ResultSet) (hs : L.Set s s') : List.Forall₂ (Reference.Alike L.same)
      (s.reference.toList ++ ResultColumn.mentionsOfAll s.columns)
      (s'.reference.toList ++ ResultColumn.mentionsOfAll s'.columns) :=
    List.rel_append (forall₂_toList hs.reference) (mentionsOfAll_alike h hs.columns)
  have hexecuted (e e' : ExecutedRoutine) (he : e.Alike L.same e') :
      e.reference.Alike L.same e'.reference :=
    ⟨rfl, he.catalog, .some he.schema, he.name⟩
  have hsets := List.rel_flatMap hm.resultSets hset
  refine List.rel_append (List.rel_append hsets (List.rel_map hexecuted hm.executedRoutines)) ?_
  rw [hm.parameterTypes]
  exact List.forall₂_same.2 fun r _ => ⟨rfl, rel_refl h.refl _, rel_refl h.refl _, h.refl _⟩

end Mentions

/-- Two analyses report alike models, or end in the same error. -/
inductive Reports (L : Likeness) :
    Except AnalysisError RoutineModel → Except AnalysisError RoutineModel → Prop where
  | ok {m m' : RoutineModel} (h : L.Model m m') : Reports L (.ok m) (.ok m')
  | error (e : AnalysisError) : Reports L (.error e) (.error e)

/-- The analyses of a routine and of the routine rewritten report alike models. -/
theorem model_alike {catalog : Catalog} {config : Config}
    (h : L.Lawful ⟨catalog.withDefaultSchema config.defaultSchema, config⟩)
    (hv : L.rewriting.KeepsQueries) (r : Routine) (hk : ∀ k ∈ r.constructs, L.allows k) :
    L.Reports (r.model catalog config) ((r.rewrite L.rewriting).model catalog config) := by
  have hwalk := routine_walks h hv r hk {} {} .start
  rw [Routine.model, Routine.model]
  dsimp only
  generalize Walk.routine r _ {} = p at hwalk
  generalize Walk.routine (r.rewrite L.rewriting) _ {} = p' at hwalk
  cases hwalk with
  | ok _ hf => exact .ok hf.model
  | error e => exact .error e

theorem Column.within {c c' d : ResultColumn} (hc : L.Column c c') (hd : d.Within c) :
    L.holds d.facts := by
  induction hd generalizing c' with
  | self => exact hc.holds
  | child he _ ih =>
    obtain ⟨e', -, he'⟩ := exists_of_mem hc.children he
    exact ih he'

theorem Model.hasColumn {m m' : RoutineModel} (hm : L.Model m m') {d : ResultColumn}
    (hd : m.HasColumn d) :
    L.holds d.facts := by
  obtain ⟨set, hset, c, hc, hd⟩ := hd
  obtain ⟨set', -, hs⟩ := exists_of_mem hm.resultSets hset
  obtain ⟨c', -, hc'⟩ := exists_of_mem hs.columns hc
  exact hc'.within hd

end Likeness

namespace ValueFacts.Kept

variable {env : Env} {allows : Construct → Prop} {holds : ValueFacts → Prop}

/-- One analysis beside itself, for a property of its columns. -/
private def likeness (allows : Construct → Prop) (holds : ValueFacts → Prop) : Likeness where
  rewriting := {}
  same := Eq
  holds := holds
  allows := allows

private theorem lawful (h : ValueFacts.Kept env allows holds) :
    (likeness allows holds).Lawful env where
  toKept := h
  keepsForm := ⟨fun _ => rfl, fun _ => rfl, fun _ => rfl, fun _ => rfl⟩
  meaning _ _ := rfl
  resolve_value _ _ := rfl
  name _ := rfl
  refl _ := rfl
  append ha hb := congrArg₂ (· ++ ·) ha hb
  fold_eq h := congrArg Text.fold h
  fill f text := by
    have hid : text.map ({} : Rewriting).name = text := Option.map_id_apply
    rw [likeness, hid]
    exact ⟨rfl, rfl, rel_refl (R := Eq) (fun _ => rfl) _, rfl⟩

/-- A property that the analysis keeps holds of all columns and of all variables that
a walk over a routine finds. -/
theorem walk (h : ValueFacts.Kept env allows holds) {r : Routine}
    (hr : ∀ k ∈ r.constructs, allows k) {f : Findings} (hw : Walk.routine r env {} = .ok ((), f)) :
    (∀ c, f.model.HasColumn c → holds c.facts) ∧
      ∀ name facts, f.context.bindings.scalar? name = some facts → holds facts.facts := by
  have hwalk := Likeness.routine_walks h.lawful ⟨fun _ => rfl, fun _ => rfl⟩ r hr {} {} .start
  rw [hw] at hwalk
  generalize Walk.routine (r.rewrite _) env {} = p' at hwalk
  cases hwalk with
  | @ok _ _ _ f' _ hf =>
    refine ⟨fun c hc => hf.model.hasColumn hc, fun name facts hn => ?_⟩
    have hscalar := hf.context.bindings.scalars.get? (Text.fold name)
    rw [Bindings.scalar?] at hn
    rw [hn] at hscalar
    generalize f'.context.bindings.scalars.get? (Text.fold name) = o at hscalar
    cases hscalar with
    | some hs => exact hs.2

/-- A property that the analysis keeps holds of all columns of a model. -/
theorem model {catalog : Catalog} {config : Config}
    (h : ValueFacts.Kept ⟨catalog.withDefaultSchema config.defaultSchema, config⟩ allows holds)
    {r : Routine}
    (hr : ∀ k ∈ r.constructs, allows k) {m : RoutineModel} (hm : r.model catalog config = .ok m)
    {c : ResultColumn} (hc : m.HasColumn c) : holds c.facts := by
  cases hw : Walk.routine r ⟨catalog.withDefaultSchema config.defaultSchema, config⟩ {} with
  | error e =>
    rw [Routine.model, hw] at hm
    cases hm
  | ok p =>
    rw [Routine.model, hw] at hm
    cases hm
    exact (h.walk hr hw).1 c hc

end ValueFacts.Kept

end ResultShape
