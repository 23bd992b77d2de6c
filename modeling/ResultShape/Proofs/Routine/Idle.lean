import ResultShape.Proofs.Analysis.NamedQuery
import ResultShape.Proofs.Routine.Rules
/-! Idle contexts: wherever a walk comes to a statement, no query is open and no columns of CTEs are
kept that the statement could find. -/
namespace ResultShape

namespace Context.Idle

variable {c : Context}

theorem nextStatement (h : c.Idle (c.statement + 1)) :
    c.nextStatement.Idle c.nextStatement.statement :=
  ⟨h.scopes, h.cteFrames, h.ctesInProgress, h.anchored, h.depth, h.cteCache⟩

theorem mono {first first' : Nat} (hle : first ≤ first') (h : c.Idle first) : c.Idle first' :=
  ⟨h.scopes, h.cteFrames, h.ctesInProgress, h.anchored, h.depth, fun key hk =>
    h.cteCache key (hle.trans hk)⟩

theorem bindings (h : c.Idle (c.statement + 1)) (bindings : Bindings) :
    Context.Idle (c.statement + 1) { c with bindings } :=
  ⟨h.scopes, h.cteFrames, h.ctesInProgress, h.anchored, h.depth, h.cteCache⟩

/-- What is replayed later leaves columns of CTEs of its own statement only. -/
theorem of_replays {α : Type} {env : Env} {x : Analysis α} {a : α} {c' : Context}
    (h : c.Idle (c.statement + 1))
    (hx : Analysis.Replays env x x) (hl : Analysis.Loads env x)
    (ho : x.outcome env c = (.ok a, c')) :
    c'.Idle (c'.statement + 1) := by
  obtain ⟨hkept, hgrows, -⟩ := hx c a c' h.anchored ho
  have hloaded := hl c
  rw [ho, h.scopes] at hloaded
  refine ⟨List.forall₂_nil_left_iff.1 hloaded, hkept.cteFrames.trans h.cteFrames,
    hkept.ctesInProgress.trans h.ctesInProgress, hkept.anchored, hkept.depth.trans h.depth,
    fun key hk => ?_⟩
  rw [hkept.statement] at hk
  rw [hgrows.others key (Nat.ne_of_gt hk)]
  exact h.cteCache key hk

end Context.Idle

/-- The context is idle for all statements to come. -/
def Findings.Idle (f : Findings) : Prop := f.context.Idle (f.context.statement + 1)

namespace Findings.Idle

variable {env : Env}

theorem start : Findings.Idle {} :=
  ⟨rfl, rfl, rfl, fun _ h => absurd h List.not_mem_nil, rfl, fun _ _ => rfl⟩

private theorem minor {change : Findings → Findings} (h : Walk.Minor change) {f : Findings}
    (hf : f.Idle) : (change f).Idle := by
  cases h with
  | nextStatement => exact Context.Idle.mono (Nat.le_succ _) hf.nextStatement
  | bindScalar name facts => exact hf.bindings _
  | untyped change => exact hf
  | model change hsets => exact hf

private theorem rules (env : Env) :
    Walk.Rules (fun _ => True) (fun _ => True) (Walk.Stays Findings.Idle env) :=
  Walk.Stays.rules env (fun _ _ _ _ _ => trivial) (fun h _ hf => hf.minor h)
    (fun _ _ _ _ hf => hf.bindings _)
    (fun _ _ _ hf => hf) (fun _ => trivial) (fun _ _ _ => trivial) fun _ _ _ => trivial

private theorem ask {α : Type} {x : Nested → Analysis α}
    (hx : ∀ n, Analysis.Replays env (x (Nested.within n)) (x (Nested.within n)))
    (hl : ∀ n, Analysis.Loads env (x (Nested.within n))) :
    Walk.Stays Findings.Idle env (fun _ => True) (Walk.ask x) :=
  .ask fun _ hf _ _ ho => ⟨trivial, Context.Idle.of_replays hf (hx _) (hl _) ho⟩

private theorem answered (env : Env) (a : Action) :
    a.Asks (Walk.Answered (fun _ => True) (Walk.Stays Findings.Idle env)) := by
  refine a.asks_of_forall (fun e => ?_) (fun q => ?_) fun ctes target sources isMerge items => ?_
  · exact ask (fun n => .expr env n e) fun n => .expr env n e
  · exact ask (fun n => (Analysis.Replays.within env n q).1) fun n =>
      (Analysis.Loads.within env n q).1
  · exact ask (fun n => .changedRows env n ctes target sources isMerge items) fun n =>
      .changedRows env n ctes target sources isMerge items

theorem bindParameters {ps : List Parameter} {f f' : Findings} (hf : f.Idle)
    (h : ps.forM Walk.bindParameter env f = .ok ((), f')) : f'.Idle :=
  ((rules env).forM (fun p _ => (rules env).bindParameter p) f hf () f' h).2

theorem declareTable {name : String} {columns : List ColumnDefinition}
    {f f' : Findings} (hf : f.Idle)
    (h : Walk.declareTable name columns env f = .ok ((), f')) : f'.Idle :=
  ((rules env).declareTable name columns f hf () f' h).2

/-- A statement leads from an idle context to one. -/
theorem statement {returnsTable : Bool} {s : Statement} {f f' : Findings} (hf : f.Idle)
    (h : Walk.statement returnsTable s env f = .ok ((), f')) : f'.Idle :=
  ((rules env).statement returnsTable s (fun a _ => answered env a) f hf () f' h).2

/-- Statements lead from an idle context to one. -/
theorem statements {returnsTable : Bool} {ss : List Statement} {f f' : Findings} (hf : f.Idle)
    (h : Walk.statements returnsTable ss env f = .ok ((), f')) : f'.Idle :=
  ((rules env).statements returnsTable ss (fun a _ => answered env a) f hf () f' h).2

end Findings.Idle

end ResultShape
