import ResultShape.Proofs.Used.Routine
/-! Used objects: everything that the model of a routine reports as a dependency is named by the
routine, in a place where it means that object, or is a type of the catalog. -/
namespace ResultShape

private theorem Snapshot.exists_record_of_scalarType? {s : Snapshot} {n : Name} {facts : TypeFacts}
    (h : s.scalarType? n = some facts) : ∃ record ∈ s.scalarTypes.values, record.facts = facts := by
  obtain ⟨schema, -, h⟩ := Option.bind_eq_some_iff.1 h
  obtain ⟨record, hrecord, hfacts⟩ := Option.bind_eq_some_iff.1 h
  exact ⟨record, List.mem_map_of_mem (Keyed.mem_of_get? hrecord), Option.some.inj hfacts⟩

/-- A user-defined type that a type reference comes to is a record of the catalog. -/
theorem Catalog.exists_record_of_resolveType {c : Catalog} {t : DataType} {u : Name}
    (h : (c.resolveType t).userType = some u) :
    ∃ record ∈ c.snapshot.scalarTypes.values,
      (⟨record.catalog, some record.schema, record.name⟩ : Name) = u := by
  unfold resolveType resolveType? resolve? at h
  split at h
  · cases h
  · cases hfacts : c.scalarType? t.name with
    | none =>
      rw [hfacts] at h
      cases h
    | some facts =>
      rw [hfacts] at h
      have hrecord : ∃ record ∈ c.snapshot.scalarTypes.values, record.facts = facts := by
        rcases Option.or_eq_some_iff.1 hfacts with hfacts | ⟨-, hfacts⟩
        · obtain ⟨catalog, -, hfacts⟩ := Option.bind_eq_some_iff.1 hfacts
          exact Snapshot.exists_record_of_scalarType? hfacts
        · exact Snapshot.exists_record_of_scalarType? hfacts
      obtain ⟨record, hmem, rfl⟩ := hrecord
      exact ⟨record, hmem, Option.some.inj h⟩

theorem Query.HasBody.whole_of_plain {ctes inSight : List Cte} {q : Query} {whole : Bool} {b : Body}
    (h : q.HasBody ctes whole inSight b)
    (hplain : ∀ cte ∈ q.definitions, cte.query.body.isSetOp → cte.query.ctes = []) :
    whole = true := by
  induction h with
  | own => rfl
  | @inner _ _ q r _ _ hr _ ih =>
    refine ih fun cte hc => hplain cte (definitions_subset_of_mem_subqueries ?_ hc)
    exact mem_subqueries_of_inner hr r.mem_subqueries_self
  | @leftmost _ q _ hc hset hwith =>
    exact absurd (hplain _ (q.ctes_subset_definitions hc) hset) hwith
  | @inLeftmost _ _ q _ _ _ _ hc hset hwith =>
    exact absurd (hplain _ (q.ctes_subset_definitions hc) hset) hwith

namespace Routine

/-- The queries that the actions of a routine ask for. -/
def queries (r : Routine) : List Query := r.actions.flatMap Action.queries

/-- The calls of procedures that the actions of a routine make. -/
def executes (r : Routine) : List Execute := r.actions.flatMap Action.executes

/-- A routine uses an object, which a reference names in its schema or in the default one, with its
catalog or without: a source or the target of a change names a table or view where no CTE of that
name is in sight, a function or procedure is called, or the catalog has the type. A place of a table
that is not `whole` stands in the leftmost branch of a definition, and a CTE of the name may be in
sight there in the `WITH` clause of that definition. -/
inductive Uses (env : Env) (r : Routine) (whole : Bool) : Reference → Prop where
  | table {q : Query} {inSight : List Cte} {b : Body} {n : Name} {catalog : Option String}
    (hq : q ∈ r.queries) (hb : q.HasBody [] whole inSight b) (hn : n ∈ b.references)
    (hlocal : n.isLocal = false) (hcte : ¬ n.MeansCte inSight)
    (hc : catalog = none ∨ catalog = n.catalog) :
      Uses env r whole
        ⟨(env.catalog.objectKind? n).getD .table, catalog,
          some (n.schema.getD env.config.defaultSchema), n.name⟩
  | function {q : Query} {complete : Bool} {inSight : List Cte} {b : Body} {n : Name}
    {catalog : Option String} (hq : q ∈ r.queries) (hb : q.HasBody [] complete inSight b)
    (hn : n ∈ b.calls) (hc : catalog = none ∨ catalog = n.catalog) :
      Uses env r whole ⟨.function, catalog, some (n.schema.getD env.config.defaultSchema), n.name⟩
  | procedure {call : Execute} (h : call ∈ r.executes) :
    Uses env r whole ⟨.procedure, call.procedure.catalog,
      some (call.procedure.schema.getD env.config.defaultSchema), call.procedure.name⟩
  | userType {record : ScalarTypeRecord} (h : record ∈ env.catalog.snapshot.scalarTypes.values) :
    Uses env r whole ⟨.userDefinedType, record.catalog, some record.schema, record.name⟩
  | tableType {n : Name} {record : RowTypeRecord}
    (h : env.catalog.snapshot.tableTypes.get? (n.schemaKey env.config.defaultSchema) =
      some record) :
    Uses env r whole (.ofName .tableType (n.inSchema env.config.defaultSchema))

variable {env : Env} {r : Routine}

private theorem typesUsed (env : Env) (r : Routine) :
    env.catalog.TypesUsed fun d => ∃ whole, r.Uses env whole d := by
  intro t u hu
  obtain ⟨record, hrecord, rfl⟩ := Catalog.exists_record_of_resolveType hu
  exact ⟨true, .userType hrecord⟩

/-- An action uses what its routine uses. -/
private theorem usesOnly {a : Action} (ha : a ∈ r.actions) :
    a.UsesOnly (fun d => ∃ whole, r.Uses env whole d) env := by
  refine ⟨fun q hq whole inSight b hb =>
    ⟨fun n hn hlocal hcte catalog hc => ⟨whole, ?_⟩, fun n hn catalog hc => ?_⟩,
    fun call hcall => ⟨true, .procedure (List.mem_flatMap.2 ⟨a, ha, hcall⟩)⟩⟩
  · exact .table (List.mem_flatMap.2 ⟨a, ha, hq⟩) hb hn hlocal hcte hc
  · exact ⟨true, .function (List.mem_flatMap.2 ⟨a, ha, hq⟩) hb hn hc⟩

private theorem Uses.whole_of_plain {whole : Bool} {d : Reference} (h : r.Uses env whole d)
    (hplain : ∀ q ∈ r.queries, ∀ cte ∈ q.definitions, cte.query.body.isSetOp →
      cte.query.ctes = []) :
    r.Uses env true d := by
  cases h with
  | table hq hb hn hlocal hcte hc =>
    obtain rfl := hb.whole_of_plain (hplain _ hq)
    exact .table hq hb hn hlocal hcte hc
  | function hq hb hn hc => exact .function hq hb hn hc
  | procedure h => exact .procedure h
  | userType h => exact .userType h
  | tableType h => exact .tableType h

/-- Every dependency that is reported is used. Where no definition by set operation has a `WITH`
clause of its own, no name of a table means a CTE in the place where it is used. -/
theorem dependencies_used {catalog : Catalog} {config : Config} {r : Routine} {m : RoutineModel}
    (h : r.model catalog config = .ok m) {d : Reference} (hd : d ∈ m.dependencies) :
    let env : Env := ⟨catalog.withDefaultSchema config.defaultSchema, config⟩
    (∃ whole, r.Uses env whole d) ∧
      ((∀ q ∈ r.queries, ∀ cte ∈ q.definitions, cte.query.body.isSetOp → cte.query.ctes = []) →
        r.Uses env true d) := by
  intro env
  have htables : env.TableTypesUsed fun d => ∃ whole, r.Uses env whole d := by
    intro n hn
    obtain ⟨records, hrecords⟩ := Option.isSome_iff_exists.1 hn
    obtain ⟨record, hrecord, -⟩ := Option.map_eq_some_iff.1 hrecords
    exact ⟨true, .tableType hrecord⟩
  have hused : ∃ whole, r.Uses env whole d := by
    cases hw : Walk.routine r env {} with
    | error e =>
      rw [Routine.model, hw] at h
      cases h
    | ok p =>
      rw [Routine.model, hw] at h
      cases h
      obtain ⟨-, hf⟩ :=
        Walk.MentionsOnly.routine (typesUsed env r) htables r (fun a ha => usesOnly ha) {}
          .start () p.2 hw
      exact hf.mentions d (RoutineModel.mem_mentions_of_mem_dependencies hd)
  refine ⟨hused, fun hplain => ?_⟩
  obtain ⟨whole, hwhole⟩ := hused
  exact hwhole.whole_of_plain hplain

private def columnOf (qualifier name : String) : Expr := .column ⟨none, some qualifier, name⟩

/-- `WITH recent AS (SELECT o.Id FROM Orders o) SELECT r.Id, dbo.f(r.Id) AS v FROM recent r`. -/
private def recentOrders : Query :=
  .block [⟨"recent", [],
    .block [] [.named (.bare "Orders") (some "o")] [.expr (columnOf "o" "Id") none]⟩]
    [.named (.bare "recent") (some "r")]
    [.expr (columnOf "r" "Id") none,
      .expr (.call (.qualified "dbo" "f") [columnOf "r" "Id"] false false) (some "v")]

private def countOrders : Routine :=
  ⟨.procedure, .bare "p", [⟨"@c", .user "dbo" "Code", false, false⟩],
    [.action (.select recentOrders), .action (.execute ⟨.qualified "sales" "Recount", [], none⟩)],
    none, none⟩

private def codes : Catalog :=
  .ofSnapshot (Snapshot.addScalarType {}
    ⟨none, "dbo", "Code", "varchar", some 8, none, none, some false⟩) {}

set_option maxRecDepth 4000 in
/-- A table that is read through a CTE, a function, a procedure and a type,
and no dependency for the CTE. -/
theorem dependencies_used_each_kind :
    ∃ m, countOrders.model codes {} = .ok m ∧
      m.dependencies = [⟨.table, none, some "dbo", "Orders"⟩, ⟨.function, none, some "dbo", "f"⟩,
        ⟨.procedure, none, some "sales", "Recount"⟩, ⟨.userDefinedType, none, some "dbo", "Code"⟩] ∧
      ∀ d ∈ m.dependencies, countOrders.Uses ⟨codes, {}⟩ true d := by
  have hplain : ∀ q ∈ countOrders.queries, ∀ cte ∈ q.definitions, cte.query.body.isSetOp →
      cte.query.ctes = [] := by
    intro q hq cte hc
    obtain rfl : q = recentOrders := List.mem_singleton.1 hq
    obtain ⟨s, hs, hc⟩ := List.mem_flatMap.1 hc
    rcases Query.mem_subqueries.1 hs with rfl | ⟨t, ht, hs⟩
    · cases List.mem_singleton.1 hc
      nofun
    · cases List.mem_singleton.1 ht
      rcases Query.mem_subqueries.1 hs with rfl | ⟨_, h, _⟩
      · cases hc
      · cases h
  have hm : (countOrders.model codes {}).map (·.dependencies) =
      .ok [⟨.table, none, some "dbo", "Orders"⟩, ⟨.function, none, some "dbo", "f"⟩,
        ⟨.procedure, none, some "sales", "Recount"⟩,
        ⟨.userDefinedType, none, some "dbo", "Code"⟩] := by decide +kernel
  cases h : countOrders.model codes {} with
  | error e =>
    rw [h] at hm
    cases hm
  | ok m =>
    rw [h] at hm
    exact ⟨m, rfl, Except.ok.inj hm, fun d hd => (dependencies_used h hd).2 hplain⟩

/-- `WITH r AS (WITH x AS (SELECT 1 AS c) SELECT x.c, r.c AS d FROM x, r UNION ALL
SELECT 1, 2) SELECT * FROM r`. -/
private def innerCte : Query :=
  let one : Item := .expr (.literal (.int 1)) (some "c")
  let left : Query := .block [] [.named (.bare "x") none, .named (.bare "r") none]
    [.expr (columnOf "x" "c") none, .expr (columnOf "r" "c") (some "d")]
  let right : Query := .block [] [] [.expr (.literal (.int 1)) none, .expr (.literal (.int 2)) none]
  .block [⟨"r", [],
    ⟨.setOp .unionAll left.body right.body, [⟨"x", [], .block [] [] [one]⟩], [], none, none⟩⟩]
    [.named (.bare "r") none] [.star none]

private def selectInnerCte : Routine :=
  ⟨.procedure, .bare "p", [], [.action (.select innerCte)], none, none⟩

set_option maxRecDepth 4000 in
/-- The leftmost branch of a definition takes a CTE of its own `WITH` clause for a table. -/
theorem dependencies_used_inner_cte :
    (selectInnerCte.model (.builtinOnly {}) {}).map (·.dependencies) =
      .ok [⟨.table, none, some "dbo", "x"⟩] ∧
      ¬ selectInnerCte.Uses ⟨.builtinOnly {}, {}⟩ true ⟨.table, none, some "dbo", "x"⟩ := by
  refine ⟨by decide +kernel, fun h => ?_⟩
  generalize hd : (⟨.table, none, some "dbo", "x"⟩ : Reference) = d at h
  cases h with
  | @table q inSight b n _ hq hb hn _ hcte _ =>
    have hname : n.name = "x" := (congrArg Reference.name hd).symm
    obtain rfl : q = innerCte := List.mem_singleton.1 hq
    cases hb with
    | own =>
      cases List.mem_singleton.1 hn
      exact absurd hname (by decide)
    | inner hr hb =>
      cases List.mem_singleton.1 hr
      cases hb with
      | own =>
        have hn : n ∈ [Name.bare "x", .bare "r"] := hn
        rcases List.mem_cons.1 hn with rfl | hn
        · exact hcte ⟨rfl, rfl, _, List.mem_cons_self, by decide⟩
        · cases List.mem_singleton.1 hn
          exact absurd hname (by decide)
      | inner hr hb =>
        cases List.mem_singleton.1 hr
        cases hb with
        | own => cases hn
        | inner hr => cases hr
  | function => cases hd
  | procedure => cases hd
  | userType h => cases h
  | tableType h => cases h

end Routine

end ResultShape
