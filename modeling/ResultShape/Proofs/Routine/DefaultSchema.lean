import ResultShape.Proofs.Analysis.Completion
import ResultShape.Proofs.Routine.ControlFlow
import ResultShape.Proofs.Routine.Idle
/-! The default schema: routines that differ only in where they write it out, for tables in `FROM`
clauses, functions and procedures, have the same model. A table in the definition of a CTE must not
have the name of some CTE of the statement. -/
namespace ResultShape

/-- In this schema; the definitions may be in sight of one another. -/
def Completion.over (schema : String) (qs : List Query) : Completion :=
  ⟨schema, Cte.keys (qs.flatMap (·.definitions))⟩

/-- The query as a statement of its own, with the schema written out. -/
def Query.inSchema (schema : String) (q : Query) : Query := q.complete (.over schema [q]) []

def Expr.inSchema (schema : String) (e : Expr) : Expr := e.complete (.over schema e.queries) []

def Execute.inSchema (schema : String) (call : Execute) : Execute :=
  { call with
    procedure := call.procedure.inSchema schema, args := call.args.map (·.inSchema schema) }

/-- A query, a call of a procedure or a returned value with the schema written out. -/
def Action.inSchema (schema : String) : Action → Action
  | .select query => .select (query.inSchema schema)
  | .execute call => .execute (call.inSchema schema)
  | .return value => .return (value.map (·.inSchema schema))
  | a => a

/-- The routine with the schema written out in its queries, calls, returned
values and conditions. -/
def Routine.inSchema (schema : String) (r : Routine) : Routine :=
  { r with body := Statement.mapAll (Expr.inSchema schema) (Action.inSchema schema) r.body }

theorem Completion.knows_over (schema : String) (q : Query) :
    (Completion.over schema [q]).Knows q := by
  intro cte hc
  refine List.mem_map_of_mem (f := fun cte : Cte => Text.fold cte.name) ?_
  rwa [List.flatMap_singleton]

theorem Query.into_inSchema (schema : String) (q : Query) :
    (q.inSchema schema).firstSelect.into = q.firstSelect.into :=
  q.into_complete

theorem Query.isVisible_inSchema (schema : String) (q : Query) :
    (q.inSchema schema).isVisible = q.isVisible :=
  q.isVisible_complete

theorem Expr.query?_inSchema (schema : String) (e : Expr) :
    (e.inSchema schema).query? = e.query?.map (Query.inSchema schema) := by
  cases e <;> rw [inSchema, complete] <;> rfl

namespace Walk

variable {env : Env} {f : Findings}
  (hcatalog : env.catalog.defaultSchema = env.config.defaultSchema)

include hcatalog

private theorem selectQuery_inSchema (q : Query) (hf : f.context.cteFrames = []) :
    selectQuery (q.inSchema env.config.defaultSchema) env f = selectQuery q env f := by
  have hfits : (Completion.over env.config.defaultSchema [q]).Fits env := ⟨rfl, hcatalog⟩
  refine run_bind_congr ?_ fun set f' _ => by rw [q.into_inSchema, q.isVisible_inSchema]
  rw [run_ask, run_ask]
  exact congrArg _ (Completion.outcome_query_complete hfits (Completion.knows_over _ q) hf)

/-- An action with the default schema written out does what the action does
where no CTE is in sight. -/
private theorem action_inSchema (returnsTable : Bool) (a : Action) (hf : f.context.cteFrames = []) :
    action returnsTable (a.inSchema env.config.defaultSchema) env f =
      action returnsTable a env f := by
  cases a with
  | select query => exact selectQuery_inSchema hcatalog query hf
  | execute call => rfl
  | «return» value =>
    rw [Action.inSchema, action_return, action_return]
    split
    · cases value with
      | none => rfl
      | some e =>
        rw [Option.map_some, Option.bind_some, Option.bind_some, e.query?_inSchema]
        cases e.query? with
        | none => rfl
        | some q => exact selectQuery_inSchema hcatalog q hf
    · rfl
  | _ => rfl

/-- A walk over statements comes to each of them where no CTE is in sight. -/
private theorem statements_inSchema (returnsTable : Bool) (ss : List Statement) (hf : f.Idle) :
    statements returnsTable (Statement.mapAll (Expr.inSchema env.config.defaultSchema)
      (Action.inSchema env.config.defaultSchema) ss) env f = statements returnsTable ss env f := by
  rw [statements_eq_forM, statements_eq_forM, Statement.actionsAll_mapAll]
  generalize Statement.actionsAll ss = as
  induction as generalizing f with
  | nil => rfl
  | cons a as ih =>
    have hstep :
        step returnsTable (a.inSchema env.config.defaultSchema) env f = step returnsTable a env f :=
      action_inSchema hcatalog returnsTable a hf.cteFrames
    refine run_bind_congr hstep fun _ f' h => ih ?_
    exact Findings.Idle.statement (s := .action a) hf (hstep.symm.trans h)

/-- The walk over a routine is the same with the default schema written out. -/
private theorem routine_inSchema (r : Routine) :
    routine (r.inSchema env.config.defaultSchema) env {} = routine r env {} := by
  refine run_bind_congr rfl fun _ f₁ hparameters => ?_
  have h₁ : f₁.Idle := Findings.Idle.start.bindParameters hparameters
  have hbody {f : Findings} (hf : f.Idle) (k : Unit → Walk Unit) :
      (statements (r.kind == .tableFunction) (r.inSchema env.config.defaultSchema).body >>= k)
          env f =
        (statements (r.kind == .tableFunction) r.body >>= k) env f :=
    run_bind_congr (statements_inSchema hcatalog _ r.body hf) fun _ _ _ => rfl
  have hsame : (r.inSchema env.config.defaultSchema).returnTable = r.returnTable := rfl
  dsimp only
  rw [hsame]
  cases r.returnTable with
  | none => exact hbody h₁ _
  | some t => exact run_bind_congr rfl fun _ f₂ hdeclare => hbody (h₁.declareTable hdeclare) _

end Walk

namespace Routine

/-- Routines that differ only in where the default schema is written out have
the same model, or fail alike. -/
theorem model_eq_of_inSchema_eq (catalog : Catalog) (config : Config) {r r' : Routine}
    (h : r.inSchema config.defaultSchema = r'.inSchema config.defaultSchema) :
    r.model catalog config = r'.model catalog config := by
  let env : Env := ⟨catalog.withDefaultSchema config.defaultSchema, config⟩
  have hwalk (r : Routine) :
      Walk.routine (r.inSchema config.defaultSchema) env {} = Walk.routine r env {} :=
    Walk.routine_inSchema rfl r
  rw [model, model, ← hwalk r, ← hwalk r', h]

private def column (name : String) : Item := .expr (.column ⟨none, none, name⟩) none

private def queryWith (items : List Item) (sources : List Source) (ctes : List Cte) : Query :=
  ⟨.select ⟨false, none, items, none, sources, none, [], none⟩, ctes, [], none, none⟩

/-- `WITH c AS (SELECT x FROM t) SELECT score() AS s, d.* FROM c, t AS u, (WITH t AS (SELECT 1 AS x)
SELECT * FROM t) AS d`, with the given names for the table outside `d` and for the function. -/
private def scoring (t score : Name) : Query :=
  let one : Item := .expr (.literal (.int 1)) (some "x")
  let d := queryWith [.star none] [.named (.bare "t") none] [⟨"t", [], queryWith [one] [] []⟩]
  queryWith [.expr (.call score [] false false) (some "s"), .star (some "d")]
    [.named (.bare "c") none, .named t (some "u"), .derived d "d" []]
    [⟨"c", [], queryWith [column "x"] [.named (.bare "t") none] []⟩]

/-- `EXECUTE audit; WHILE 1 IS NULL …` with such a query for the loop. -/
private def running (audit t score : Name) : Routine :=
  ⟨.procedure, .bare "p", [], [.action (.execute ⟨audit, [], none⟩),
    .while (.isNull (.literal (.int 1)) false) (.action (.select (scoring t score)))], none, none⟩

private theorem over_scoring (t score : Name) :
    Completion.over "dbo" [scoring t score] = ⟨"dbo", ["c", "t"]⟩ := by
  let one := queryWith [.expr (.literal (.int 1)) (some "x")] [] []
  let d := queryWith [.star none] [.named (.bare "t") none] [⟨"t", [], one⟩]
  let c := queryWith [column "x"] [.named (.bare "t") none] []
  have hone : one.definitions = [] := one.definitions_eq
  have hc : c.definitions = [] := c.definitions_eq
  have hd : d.definitions = [⟨"t", [], one⟩] := by
    rw [d.definitions_eq]
    exact congrArg (⟨"t", [], one⟩ :: · ++ []) hone
  have hall : (scoring t score).definitions = [⟨"c", [], c⟩, ⟨"t", [], one⟩] := by
    rw [Query.definitions_eq]
    change ⟨"c", [], c⟩ :: (c.definitions ++ (d.definitions ++ [])) = _
    rw [hc, hd]
    rfl
  rw [Completion.over, List.flatMap_singleton, hall]
  exact congrArg (Completion.mk "dbo")
    (by decide +kernel : [Text.fold "c", Text.fold "t"] = ["c", "t"])

set_option maxRecDepth 4000 in
theorem model_eq_of_inSchema_eq_scoring :
    let r := running (.bare "audit") (.bare "t") (.bare "score")
    let r' := running (.qualified "dbo" "audit") (.qualified "dbo" "t") (.qualified "dbo" "score")
    r.inSchema "dbo" = r'.inSchema "dbo" ∧
      (r.model (.builtinOnly {}) {}).map (·.resultSets.map (·.columnNames)) = .ok [["s", "x"]] ∧
      r.model (.builtinOnly {}) {} = r'.model (.builtinOnly {}) {} := by
  intro r r'
  have hquery : (scoring (.bare "t") (.bare "score")).inSchema "dbo" =
      (scoring (.qualified "dbo" "t") (.qualified "dbo" "score")).inSchema "dbo" := by
    rw [Query.inSchema, Query.inSchema, over_scoring, over_scoring]
    rfl
  have h : r.inSchema "dbo" = r'.inSchema "dbo" :=
    congrArg (fun q =>
      Routine.mk .procedure (.bare "p") [] [.action (.execute ⟨.qualified "dbo" "audit", [], none⟩),
        .while (.isNull (.literal (.int 1)) false) (.action (.select q))] none none) hquery
  exact ⟨h, by decide +kernel, model_eq_of_inSchema_eq _ _ h⟩

set_option maxRecDepth 4000 in
/-- `WITH a AS (SELECT x FROM t) SELECT * FROM (WITH t AS (SELECT 1 AS x) SELECT * FROM a) AS d`,
where the definition of `a` reads the inner `t`, unless it names a schema. -/
theorem definition_reads_inner_cte :
    let a (t : Name) : Cte := ⟨"a", [], queryWith [column "x"] [.named t none] []⟩
    let one : Query := queryWith [.expr (.literal (.int 1)) (some "x")] [] []
    let d : Query := queryWith [.star none] [.named (.bare "a") none] [⟨"t", [], one⟩]
    let r (t : Name) : Routine :=
      ⟨.procedure, .bare "p", [],
        [.action (.select (queryWith [.star none] [.derived d "d" []] [a t]))], none, none⟩
    let types (t : Name) :=
      ((r t).model (.builtinOnly {}) {}).map (·.resultSets.map (·.columns.map (·.sqlType)))
    types (.bare "t") = .ok [[some .int]] ∧ types (.qualified "dbo" "t") = .ok [[none]] := by
  decide +kernel

end Routine

end ResultShape
