import ResultShape.Proofs.Routine.Frame
/-! Types of variables: over every run of parameters, declarations and assignments, an assignment
changes the binding of a variable only if there is none yet, or if a declaration left the variable
without a type. A declaration that comes later does not take that back. -/
namespace ResultShape

open Analysis

/-- A step of a walk that may bind a scalar variable. -/
inductive VariableStep where
  | parameter (p : Parameter)
  | declaration (d : VariableDeclaration)
  | assignment (name : String) (value : Expr)

namespace VariableStep

def walk : VariableStep → Walk Unit
  | .parameter p => Walk.bindParameter p
  | .declaration d => Walk.declareVariable d
  | .assignment name value => Walk.setVariable name value

/-- A parameter or a declaration of this name. -/
def declares (name : String) : VariableStep → Bool
  | .parameter p => Text.same p.name name
  | .declaration d => Text.same d.name name
  | .assignment .. => false

/-- Where the walk stands, the step assigns to the variable a value that has a type. -/
inductive Supplies (env : Env) (name : String) : VariableStep → Findings → Prop
  | assignment {n : String} {value : Expr} {f g : Findings} {facts : TypeFacts}
    (hn : Text.same n name = true) (h : Walk.typeOf value env f = .ok (some facts, g)) :
      Supplies env name (.assignment n value) f

end VariableStep

/-- What a walk has come to from the start, and the steps for variables on its way: the last one
first, each with what was found before it. -/
inductive VariableRun (env : Env) : List (VariableStep × Findings) → Findings → Prop
  | start : VariableRun env [] {}
  | step {steps : List (VariableStep × Findings)} {s : VariableStep} {f f' : Findings}
    (h : VariableRun env steps f) (hs : s.walk env f = .ok ((), f')) :
      VariableRun env ((s, f) :: steps) f'
  | statement {steps : List (VariableStep × Findings)} {f : Findings}
    (h : VariableRun env steps f) :
      VariableRun env steps { f with context := f.context.nextStatement }
  | other {steps : List (VariableStep × Findings)} {a : Action} {returnsTable : Bool}
    {f f' : Findings} (h : VariableRun env steps f) (ha : a.bindsVariables = false)
    (hs : Walk.action returnsTable a env f = .ok ((), f')) : VariableRun env steps f'

/-- A declaration left the variable without a type, and no assignment since has supplied one. -/
def AwaitsType (env : Env) (name : String) (steps : List (VariableStep × Findings)) : Prop :=
  ∃ since d g before, steps = since ++ (.declaration d, g) :: before ∧
    Text.same d.name name = true ∧
    d.LeavesUntyped env g ∧ ∀ s ∈ since, ¬ s.1.Supplies env name s.2

/-- The declaration that left the variable without a type is the last one of the variable. -/
def LastLeftUntyped (env : Env) (name : String) (steps : List (VariableStep × Findings)) : Prop :=
  ∃ since d g before, steps = since ++ (.declaration d, g) :: before ∧
    Text.same d.name name = true ∧
    d.LeavesUntyped env g ∧ ∀ s ∈ since, s.1.declares name = false ∧ ¬ s.1.Supplies env name s.2

namespace AwaitsType

variable {env : Env} {name : String} {steps : List (VariableStep × Findings)}

theorem declaration {d : VariableDeclaration} {g : Findings} (hn : Text.same d.name name = true)
    (h : d.LeavesUntyped env g) : AwaitsType env name ((.declaration d, g) :: steps) :=
  ⟨[], d, g, steps, rfl, hn, h, fun _ hs => nomatch hs⟩

theorem cons {s : VariableStep} {f : Findings} (h : AwaitsType env name steps)
    (hs : ¬ s.Supplies env name f) :
    AwaitsType env name ((s, f) :: steps) := by
  obtain ⟨since, d, g, before, rfl, hn, hd, hsince⟩ := h
  exact ⟨(s, f) :: since, d, g, before, rfl, hn, hd, List.forall_mem_cons.2 ⟨hs, hsince⟩⟩

/-- A variable that is declared once is declared last where it is declared. -/
theorem lastLeftUntyped (h : AwaitsType env name steps)
    (hone : steps.countP (·.1.declares name) ≤ 1) :
    LastLeftUntyped env name steps := by
  obtain ⟨since, d, g, before, rfl, hn, hd, hsince⟩ := h
  refine ⟨since, d, g, before, rfl, hn, hd, fun s hs => ⟨?_, hsince s hs⟩⟩
  have hcount : since.countP (·.1.declares name) = 0 := by
    rw [List.countP_append, List.countP_cons_of_pos (by exact hn)] at hone
    omega
  exact Bool.eq_false_iff.2 (List.countP_eq_zero.1 hcount s hs)

end AwaitsType

namespace Walk

variable {env : Env}

/-- An action that binds no variable leaves the same variables without a type. -/
private theorem untyped_of_action {returnsTable : Bool} {a : Action} {f f' : Findings}
    (ha : a.bindsVariables = false)
    (hf : f.context.Anchored) (hs : action returnsTable a env f = .ok ((), f')) :
    f'.context.Anchored ∧ f'.untyped = f.untyped :=
  (bound_action (P := fun _ u => u = f.untyped) returnsTable ha (fun _ _ _ _ _ hu => hu) f
    ⟨hf, rfl⟩ () f' hs).2

end Walk

namespace VariableRun

variable {env : Env} {steps : List (VariableStep × Findings)} {f : Findings}

/-- No step leaves columns of CTEs that are not being computed. -/
theorem anchored (h : VariableRun env steps f) : f.context.Anchored := by
  induction h with
  | start => exact fun _ hk => nomatch hk
  | @step _ s f _ _ hs ih =>
    cases s with
    | parameter p => exact (Walk.of_bindParameter hs).1 ▸ ih
    | declaration d => exact (Walk.of_declareVariable ih hs).2
    | assignment name value => exact (Walk.of_setVariable ih hs).2
  | statement _ ih => exact ih
  | other _ ha hs ih => exact (Walk.untyped_of_action ha ih hs).1

/-- The variables that are noted as untyped are waiting for a type. -/
theorem awaitsType (h : VariableRun env steps f) {name : String} (hu : Text.fold name ∈ f.untyped) :
    AwaitsType env name steps := by
  induction h with
  | start => cases hu
  | @step _ s f _ hrun hs ih =>
    cases s with
    | parameter p =>
      rw [(Walk.of_bindParameter hs).2] at hu
      exact (ih hu).cons nofun
    | declaration d =>
      have hkept (he : _ = f.untyped) : AwaitsType env name ((.declaration d, f) :: _) :=
        (ih (he ▸ hu)).cons nofun
      cases (Walk.of_declareVariable hrun.anchored hs).1 with
      | table _ _ he => exact hkept he
      | known _ _ he => exact hkept he
      | inferred _ _ _ _ he => exact hkept he
      | unknown hd _ he =>
        rw [he] at hu
        rcases List.mem_cons.1 hu with hname | hu
        · exact .declaration (Text.same_iff.2 hname.symm) hd
        · exact (ih hu).cons nofun
    | assignment n value =>
      cases (Walk.of_setVariable hrun.anchored hs).1 with
      | typed _ hn he =>
        subst he
        refine (ih hu).cons ?_
        rintro ⟨hsame, -⟩
        exact hn (Text.same_iff.1 hsame ▸ hu)
      | untyped hnone =>
        rw [(Walk.of_typeOf hrun.anchored hnone).2.2] at hu
        refine (ih hu).cons ?_
        rintro ⟨-, hsome⟩
        cases hnone.symm.trans hsome
      | types _ _ _ he =>
        rw [he, List.mem_filter] at hu
        refine (ih hu.1).cons ?_
        rintro ⟨hsame, -⟩
        exact of_decide_eq_true hu.2 (Text.same_iff.1 hsame).symm
  | statement _ ih => exact ih hu
  | other hrun ha hs ih =>
    rw [(Walk.untyped_of_action ha hrun.anchored hs).2] at hu
    exact ih hu

/-- What is walked over one by one, each in some more steps, is walked over in some more steps. -/
private theorem exists_of_forM {γ : Type} {g : γ → Walk PUnit}
    (hg : ∀ x steps f f', VariableRun env steps f → g x env f = .ok ((), f') →
      ∃ more, VariableRun env (more ++ steps) f') {xs : List γ} {f' : Findings}
    (h : VariableRun env steps f) (hs : xs.forM g env f = .ok ((), f')) :
      ∃ more, VariableRun env (more ++ steps) f' := by
  induction xs generalizing steps f with
  | nil =>
    cases hs
    exact ⟨[], h⟩
  | cons x xs ih =>
    obtain ⟨_, f₁, hx, hs⟩ := Walk.run_bind_eq_ok.1 hs
    obtain ⟨first, hfirst⟩ := hg x steps f f₁ h hx
    obtain ⟨more, hmore⟩ := ih hfirst hs
    exact ⟨more ++ first, by rwa [List.append_assoc]⟩

theorem exists_of_action (h : VariableRun env steps f) {returnsTable : Bool} {a : Action}
    {f' : Findings}
    (hs : Walk.action returnsTable a env f = .ok ((), f')) :
    ∃ more, VariableRun env (more ++ steps) f' := by
  by_cases ha : a.bindsVariables = false
  · exact ⟨[], h.other ha hs⟩
  · cases a with
    | declare declarations =>
      refine exists_of_forM (fun d steps f f' h hd => ?_) h hs
      exact ⟨[_], h.step (s := .declaration d) hd⟩
    | set name value => exact ⟨[_], h.step (s := .assignment name value) hs⟩
    | _ => exact absurd rfl ha

/-- The walk over the parameters of a routine is such a run, -/
theorem exists_of_parameters {parameters : List Parameter}
    (hs : parameters.forM Walk.bindParameter env {} = .ok ((), f)) :
    ∃ steps, VariableRun env steps f := by
  obtain ⟨steps, h⟩ :=
    exists_of_forM (fun p _ _ _ h hp => ⟨[_], h.step (s := .parameter p) hp⟩) start hs
  exact ⟨_, h⟩

/-- and so it is with statements behind them, in whatever blocks and branches these stand. -/
theorem exists_of_statements (h : VariableRun env steps f) {returnsTable : Bool}
    {ss : List Statement} {f' : Findings}
    (hs : Walk.statements returnsTable ss env f = .ok ((), f')) :
    ∃ more, VariableRun env (more ++ steps) f' := by
  rw [Walk.statements_eq_forM] at hs
  refine exists_of_forM (fun a _ _ _ h ha => ?_) h hs
  obtain ⟨_, _, hnext, ha⟩ := Walk.run_bind_eq_ok.1 ha
  cases hnext
  exact exists_of_action h.statement ha

end VariableRun

/-- An assignment changes the binding of a variable only if it has none, or if some declaration left
it without a type and no assignment has supplied one since. If the variable is declared once, that
declaration is its last one. -/
theorem setVariable_changes_untyped {env : Env} {steps : List (VariableStep × Findings)}
    {f f' : Findings} {name : String} {value : Expr} (h : VariableRun env steps f)
    (hs : Walk.setVariable name value env f = .ok ((), f'))
    (hchange : f'.context.bindings.scalar? name ≠ f.context.bindings.scalar? name) :
    f.context.bindings.scalar? name = none ∨
      AwaitsType env name steps ∧
      (steps.countP (·.1.declares name) ≤ 1 → LastLeftUntyped env name steps) := by
  cases (Walk.of_setVariable h.anchored hs).1 with
  | typed _ _ he => exact absurd (congrArg (fun f => f.context.bindings.scalar? name) he) hchange
  | untyped hnone =>
    exact absurd
      (congrArg (fun b : Bindings => b.scalar? name) (Walk.of_typeOf h.anchored hnone).1) hchange
  | types _ ho _ _ =>
    exact ho.imp_right fun hu => ⟨h.awaitsType hu, (h.awaitsType hu).lastLeftUntyped⟩

namespace Redeclared

def env : Env := ⟨.builtinOnly {}, {}⟩

/-- `DECLARE @v dbo.Label`, a type that is not in the catalog. -/
def unknown : VariableDeclaration := ⟨"@v", .user "dbo" "Label", none⟩

/-- `DECLARE @v int`. -/
def int : VariableDeclaration := ⟨"@v", .bare "int", none⟩

/-- The value of `SET @v = 'x'`. -/
def value : Expr := .literal (.string "x" false)

/-- What the walk finds with one declaration more. -/
def declare (d : VariableDeclaration) (f : Findings) : Findings :=
  match Walk.declareVariable d env f with
  | .ok (_, f') => f'
  | .error _ => f

/-- What it finds with the assignment behind that. -/
def assign (f : Findings) : Findings :=
  match Walk.setVariable "@v" value env f with
  | .ok (_, f') => f'
  | .error _ => f

private theorem run_unknown : VariableRun env [(.declaration unknown, {})] (declare unknown {}) :=
  VariableRun.start.step (s := .declaration unknown) rfl

end Redeclared

open Redeclared in
/-- Behind the first declaration alone the assignment types the variable. -/
theorem setVariable_changes_untyped_unknown :
    let f := declare unknown {}
    VariableRun env [(.declaration unknown, {})] f ∧
      Walk.setVariable "@v" value env f = .ok ((), assign f) ∧
      (assign f).context.bindings.scalar? "@v" ≠ f.context.bindings.scalar? "@v" ∧
      LastLeftUntyped env "@v" [(.declaration unknown, {})] := by
  intro f
  have hs : Walk.setVariable "@v" value env f = .ok ((), assign f) := rfl
  have hchange : (assign f).context.bindings.scalar? "@v" ≠ f.context.bindings.scalar? "@v" := by
    decide
  refine ⟨run_unknown, hs, hchange, ?_⟩
  rcases setVariable_changes_untyped run_unknown hs hchange with hnone | ⟨-, hlast⟩
  · exact absurd hnone (by decide)
  · exact hlast (by decide)

open Redeclared in
/-- Behind both declarations it does so too, although the last one gives the
variable a type that is known. -/
theorem setVariable_retypes_redeclared :
    ¬ ∀ steps f f' name value, VariableRun env steps f →
    Walk.setVariable name value env f = .ok ((), f') →
      f'.context.bindings.scalar? name ≠ f.context.bindings.scalar? name →
      f.context.bindings.scalar? name = none ∨ LastLeftUntyped env name steps := by
  intro hclaim
  let f := declare int (declare unknown {})
  have hrun :
      VariableRun env [(.declaration int, declare unknown {}), (.declaration unknown, {})] f :=
    run_unknown.step (s := .declaration int) rfl
  rcases hclaim _ f (assign f) "@v" value hrun rfl
    (by decide) with hnone | ⟨since, d, g, before, hsteps, -, hd, hsince⟩
  · exact absurd hnone (by decide)
  · cases since with
    | nil =>
      -- The last declaration leaves nothing untyped.
      cases hsteps
      exact absurd hd.unknown (by decide)
    | cons s since =>
      obtain ⟨rfl, -⟩ := List.cons.inj hsteps
      exact absurd (hsince _ List.mem_cons_self).1 (by decide)

end ResultShape
