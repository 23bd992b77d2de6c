import ResultShape.Proofs.Analysis.Naming
import ResultShape.Proofs.Analysis.Restoration
import ResultShape.Proofs.Routine.Outcome
import ResultShape.Proofs.Routine.Rules
import ResultShape.Proofs.Scope.Columns
/-! Distinct names: what a walk over a routine has found is sound after each of its actions, so that
no result set of the model has two columns of one name. -/
namespace ResultShape

/-- No two columns of the set have names that fold to the same text. -/
def ResultSet.Distinct (set : ResultSet) : Prop := (set.columns.map fun c => Text.fold c.name).Nodup

namespace Analysis

theorem distinct_resultSet (p : Projection) : p.resultSet.Distinct :=
  ResultColumn.nodup_assignNames p.columns

private theorem returns_resolveWith (n : Nested) (q : Query) :
    Returns ResultSet.Distinct (q.resolveWith n) := by
  refine .bind fun projection => .bind fun env => .pure ?_
  cases q.forJson? env.config with
  | none => exact distinct_resultSet projection
  | some f => exact distinct_resultSet projection

/-- A query gives a set of distinct names, whether rows or a document is made of it. -/
theorem returns_query (n : Nat) (q : Query) :
    Returns ResultSet.Distinct ((Nested.within n).query q) := by
  cases n with
  | zero => exact .bind fun env => .throw _
  | succ n => exact .opening (returns_resolveWith _ q)

theorem returns_changedRows (ctes : List Cte) (target : Source) (sources : List Source)
    (isMerge : Bool) (items : List Item) (n : Nested) :
    Returns ResultSet.Distinct (Walk.changedRows ctes target sources isMerge items n) := by
  have hitems : Returns ResultSet.Distinct (Walk.outputItems target sources isMerge items n) := by
    intro env c set c' h
    obtain ⟨_, c₁, -, h⟩ := outcome_bind_eq_ok.1 h
    obtain ⟨rows, c₂, hrows, h⟩ := outcome_bind_eq_ok.1 h
    obtain ⟨_, _, -, h⟩ := outcome_bind_eq_ok.1 h
    cases h
    obtain ⟨projection, c₃, -, h⟩ := outcome_bind_eq_ok.1 hrows
    cases h
    exact distinct_resultSet projection
  exact .between (.between hitems _ _) _ _

end Analysis

/-- The walk stands where an analysis can come to, its local tables keep columns under their own
names, and its result sets have distinct names. -/
structure Findings.Sound (f : Findings) : Prop where
  reachable : f.context.Reachable
  named : ∀ name columns, f.context.bindings.table? name = some columns → columns.Named
  distinct : ∀ set ∈ f.model.resultSets, set.Distinct

namespace Findings.Sound

variable {f : Findings}

private theorem minor {change : Findings → Findings} (h : Walk.Minor change) (hf : f.Sound) :
    (change f).Sound := by
  cases h with
  | nextStatement => exact ⟨.step hf.reachable (.nextStatement _), hf.named, hf.distinct⟩
  | bindScalar name facts => exact ⟨.step hf.reachable (.bindings _ _), hf.named, hf.distinct⟩
  | untyped change => exact ⟨hf.reachable, hf.named, hf.distinct⟩
  | model change hsets =>
    exact ⟨hf.reachable, hf.named, fun set hs => hf.distinct set (hsets _ ▸ hs)⟩

private theorem bindTable (name : String) {columns : ColumnMap} (hc : columns.Named)
    (hf : f.Sound) :
    Sound { f with
      context := { f.context with bindings := f.context.bindings.bindTable name columns } } := by
  refine ⟨.step hf.reachable (.bindings _ _), fun other found h => ?_, hf.distinct⟩
  simp only [Bindings.table?, Bindings.bindTable, Keyed.get?_insert] at h
  split at h
  · cases h
    exact hc
  · exact hf.named other found h

private theorem addResultSet {set : ResultSet} (hs : set.Distinct) (hf : f.Sound) :
    Sound { f with model := { f.model with resultSets := f.model.resultSets ++ [set] } } := by
  refine ⟨hf.reachable, hf.named, fun other ho => ?_⟩
  rcases List.mem_append.1 ho with ho | ho
  · exact hf.distinct other ho
  · rw [List.mem_singleton.1 ho]
    exact hs

private theorem rules (env : Env) :
    Walk.Rules ColumnMap.Named ResultSet.Distinct (Walk.Stays Findings.Sound env) := by
  refine Walk.Stays.rules env (fun _ hf => hf.named) (fun h _ hf => hf.minor h)
    (fun name _ hc _ hf => hf.bindTable name hc)
    (fun _ hs _ hf => hf.addResultSet hs) ColumnMap.named_ofInfos
      (fun _ _ _ => ColumnMap.named_ofColumns _ _) ?_
  intro columns name hc
  change (List.map _ (List.map _ _)).Nodup
  rw [List.map_map]
  exact hc.nodup_names

/-- An answer leaves the context as it was, up to its cache and to loaded columns. -/
private theorem ask {α : Type} {env : Env} {P : α → Prop} {x : Nested → Analysis α}
    (hk : ∀ n inProgress, Analysis.Keeps env Eq inProgress (x (Nested.within n)))
    (hr : ∀ n, Analysis.Returns P (x (Nested.within n))) :
    Walk.Stays Findings.Sound env P (Walk.ask x) := by
  refine .ask fun f hf a c ho => ?_
  have hkept :=
    hk (env.config.maxNestingDepth - f.context.depth) f.context.ctesInProgress f.context rfl
    hf.reachable.anchored
  change
    (x (Nested.within (env.config.maxNestingDepth - f.context.depth))).outcome env f.context = _
      at ho
  rw [ho] at hkept
  refine ⟨hr _ env f.context a c ho, hkept.reachable hf.reachable,
    fun name columns ht => ?_, hf.distinct⟩
  exact hf.named name columns (hkept.bindings ▸ ht)

private theorem answered (env : Env) (a : Action) :
    a.Asks (Walk.Answered ResultSet.Distinct (Walk.Stays Findings.Sound env)) := by
  refine a.asks_of_forall (fun e => ?_) (fun q => ?_) fun ctes target sources isMerge items => ?_
  · exact ask (fun n i => .expr env n i e) fun _ _ _ _ _ _ => trivial
  · exact ask (fun n i => (Analysis.Keeps.within env n i q).1) fun n => Analysis.returns_query n q
  · exact ask (fun n i => .changedRows env n i ctes target sources isMerge items) fun n =>
      Analysis.returns_changedRows ctes target sources isMerge items (Nested.within n)

end Findings.Sound

namespace Routine

/-- What a walk over a routine finds is sound. -/
theorem sound_of_walk {env : Env} {r : Routine} {f : Findings}
    (h : Walk.routine r env {} = .ok ((), f)) : f.Sound := by
  have hstart : Findings.Sound {} := ⟨.start, fun _ _ h => (nomatch h), fun _ h => (nomatch h)⟩
  exact ((Findings.Sound.rules env).routine r (fun a _ => Findings.Sound.answered env a) {}
    hstart () f h).2

/-- The columns of every result set of a model have names that differ after folding. -/
theorem nodup_names_of_model_eq_ok {catalog : Catalog} {config : Config} {r : Routine}
    {m : RoutineModel} (h : r.model catalog config = .ok m) :
    ∀ set ∈ m.resultSets, (set.columns.map fun c => Text.fold c.name).Nodup := by
  cases hw : Walk.routine r ⟨catalog.withDefaultSchema config.defaultSchema, config⟩ {} with
  | error e =>
    rw [model, hw] at h
    cases h
  | ok p =>
    rw [model, hw] at h
    cases h
    exact (sound_of_walk hw).distinct

/-- The second column of this name gets a number, which is the name that the third one asks for. -/
theorem nodup_names_of_made_up_name :
    let column (value : Int) (name : String) : Item := .expr (.literal (.int value)) (some name)
    let q : Query :=
      ⟨.select
        ⟨false, none, [column 1 "id", column 2 "ID", column 3 "id2"], none, [], none, [], none⟩,
        [], [], none, none⟩
    let r : Routine := ⟨.procedure, .bare "p", [], [.action (.select q)], none, none⟩
    ∃ m, r.model (.builtinOnly {}) {} = .ok m ∧
      m.resultSets.map (·.columnNames) = [["id", "ID2", "id22"]] ∧
      ∀ set ∈ m.resultSets, (set.columns.map fun c => Text.fold c.name).Nodup := by
  intro column q r
  have hnames : (r.model (.builtinOnly {}) {}).map (·.resultSets.map (·.columnNames)) =
      .ok [["id", "ID2", "id22"]] := by
    rfl
  obtain ⟨m, hm⟩ : ∃ m, r.model (.builtinOnly {}) {} = .ok m := ⟨_, rfl⟩
  rw [hm] at hnames
  exact ⟨m, hm, Except.ok.inj hnames, nodup_names_of_model_eq_ok hm⟩

end Routine

end ResultShape
