import ResultShape.Proofs.Analysis.ReadBack
import ResultShape.Proofs.Analysis.SourceEntries
import ResultShape.Proofs.Analysis.Star
import ResultShape.Proofs.Routine.Bindings
/-! Stored columns: what an object of the catalog or a declared table keeps of its columns comes out
of a star over it as it went in, in the same order. -/
namespace ResultShape

/-- A column as an object keeps it. -/
structure StoredColumn where
  name : String
  type : DataType
  isNullable : Bool

def ColumnRecord.stored (r : ColumnRecord) : StoredColumn :=
  ⟨r.name, ⟨r.type, r.maxLength, r.precision, r.scale⟩, r.isNullable⟩

def ColumnDefinition.stored (d : ColumnDefinition) : StoredColumn :=
  ⟨d.name, d.type, d.nullable.getD true⟩

/-- The column of a result set is the stored one: with its name, the type that the catalog resolves,
the stored nullability, and the object and column for its source. -/
structure ResultColumn.Shows (catalog : Catalog) (owner : ColumnSource) (c : ResultColumn)
    (s : StoredColumn) : Prop where
  name : c.name = s.name
  source : c.source = some { owner with column := some s.name }
  sqlType : c.sqlType = some (catalog.resolveType s.type).sqlType
  userType : c.userType = (catalog.resolveType s.type).userType
  isNullable : c.isNullable = some s.isNullable

/-- The walk binds a table under a name, with columns that a table type or
the declaration itself gives. -/
inductive Walk.BindsTable (env : Env) : Walk Unit → String → List StoredColumn → Prop
  | parameter {p : Parameter} {records : List ColumnRecord}
    (h : env.catalog.tableTypeColumns? p.type.name = some records) :
    BindsTable env (bindParameter p) p.name (records.map (·.stored))
  | variable {d : VariableDeclaration} {records : List ColumnRecord}
    (h : env.catalog.tableTypeColumns? d.type.name = some records) :
    BindsTable env (declareVariable d) d.name (records.map (·.stored))
  | declaration (name : String) (columns : List ColumnDefinition) :
    BindsTable env (declareTable name columns) name (columns.map (·.stored))

/-- In a context a source stands for an object with stored columns: a table, view or
function by a name with a schema, or a table that a declaration bound under the local name,
which still has this meaning. -/
inductive Stores (env : Env) (c : Context) : Source → ColumnSource → List StoredColumn → Prop
  | table {name : Name} {schema : String} {records : List ColumnRecord} (aliasName : Option String)
    (hs : name.schema = some schema) (h : env.catalog.tableColumns? name = some records) :
    Stores env c (.named name aliasName)
      { schema := some schema, table := some name.name, objectKind := env.catalog.objectKind? name }
      (records.map (·.stored))
  | function {name : Name} {schema : String} {records : List ColumnRecord} (args : List Expr)
    (aliasName : Option String) (hs : name.schema = some schema)
    (h : env.catalog.functionColumns? name = some records) :
      Stores env c (.function name args aliasName)
        { schema := some schema, table := some name.name, objectKind := some .function }
        (records.map (·.stored))
  | variable {x : Walk Unit} {declared name : String} {columns : List StoredColumn}
    {f f' : Findings} (aliasName : Option String) (hx : Walk.BindsTable env x declared columns)
    (hf : x env f = .ok ((), f'))
    (h : c.bindings.table? name = f'.context.bindings.table? declared) :
      Stores env c (.var name aliasName) { table := some declared } columns
  | temporary {x : Walk Unit} {declared : String} {name : Name} {columns : List StoredColumn}
    {f f' : Findings} (aliasName : Option String) (hx : Walk.BindsTable env x declared columns)
    (hf : x env f = .ok ((), f')) (hlocal : name.isLocal = true)
    (h : c.bindings.table? name.name = f'.context.bindings.table? declared) :
      Stores env c (.named name aliasName) { table := some declared } columns

open Analysis

/-- What is known of a column is what is stored, whatever alias it is read through. -/
def ColumnInfo.Keeps (catalog : Catalog) (owner : ColumnSource) (info : ColumnInfo)
    (s : StoredColumn) : Prop :=
  ∀ aliasTable, (info.project aliasTable false).Shows catalog owner s

namespace ColumnInfo

variable (catalog : Catalog) (owner : ColumnSource)

private theorem keeps_ofRecords (records : List ColumnRecord) :
    List.Forall₂ (Keeps catalog owner) (records.map (.ofRecord catalog owner))
      (records.map (·.stored)) := by
  rw [List.forall₂_map_left_iff, List.forall₂_map_right_iff, List.forall₂_same]
  exact fun _ _ _ => ⟨rfl, rfl, rfl, rfl, rfl⟩

/-- The function that a column depends on is no part of what is stored. -/
private theorem keeps_ofFunction (reference : Reference) (records : List ColumnRecord) :
    List.Forall₂ (Keeps catalog owner)
      (records.map fun r => { ofRecord catalog owner r with reference := some reference })
      (records.map (·.stored)) := by
  rw [List.forall₂_map_left_iff, List.forall₂_map_right_iff, List.forall₂_same]
  exact fun _ _ _ => ⟨rfl, rfl, rfl, rfl, rfl⟩

private theorem keeps_ofDefinitions (name : String) (columns : List ColumnDefinition) :
    List.Forall₂ (Keeps catalog { table := some name }) (columns.map (.ofDefinition catalog name))
      (columns.map (·.stored)) := by
  rw [List.forall₂_map_left_iff, List.forall₂_map_right_iff, List.forall₂_same]
  exact fun _ _ _ => ⟨rfl, rfl, rfl, rfl, rfl⟩

variable {catalog owner} {infos : List ColumnInfo} {columns : List StoredColumn}

theorem map_name_of_keeps (h : List.Forall₂ (Keeps catalog owner) infos columns) :
    infos.map (·.name) = columns.map (·.name) := by
  induction h with
  | nil => rfl
  | cons hkeeps _ ih => exact congrArg₂ List.cons (hkeeps "").name ih

theorem nodup_of_keeps (h : List.Forall₂ (Keeps catalog owner) infos columns)
    (hdistinct : (columns.map fun s => Text.fold s.name).Nodup) :
    (infos.map fun info => Text.fold info.name).Nodup := by
  have hfolded := congrArg (List.map Text.fold) (map_name_of_keeps h)
  rw [List.map_map, List.map_map] at hfolded
  exact hfolded ▸ hdistinct

end ColumnInfo

namespace Walk

variable {env : Env} {f f' : Findings}

/-- After the declaration its name stands for the columns that are declared. -/
theorem BindsTable.exists_table? {x : Walk Unit} {declared : String} {columns : List StoredColumn}
    (h : BindsTable env x declared columns) (hf : x env f = .ok ((), f')) :
    ∃ infos, f'.context.bindings.table? declared = some (.ofInfos infos) ∧
      List.Forall₂ (ColumnInfo.Keeps env.catalog { table := some declared }) infos columns := by
  cases h with
  | parameter h =>
    obtain ⟨hc, -⟩ := of_bindParameter hf
    rw [hc, h]
    exact ⟨_, Bindings.table?_bindTable .., ColumnInfo.keeps_ofRecords ..⟩
  | «variable» h =>
    obtain ⟨hc, -⟩ := of_declareVariable_of_table h hf
    rw [hc]
    exact ⟨_, Bindings.table?_bindTable .., ColumnInfo.keeps_ofRecords ..⟩
  | declaration name definitions =>
    obtain ⟨hc, -⟩ := of_declareTable hf
    rw [hc]
    exact ⟨_, Bindings.table?_bindTable .., ColumnInfo.keeps_ofDefinitions ..⟩

end Walk

section Star

variable {env : Env} {c : Context} {source : Source} {owner : ColumnSource}
  {columns : List StoredColumn}

namespace Stores

private theorem isLocal_of_schema {name : Name} {schema : String} (hs : name.schema = some schema) :
    name.isLocal = false := by
  simp [Name.isLocal, hs]

private theorem cteNamed?_of_schema {name : Name} {schema : String} (c : Context)
    (hs : name.schema = some schema) :
    c.cteNamed? name = none := by
  simp [Context.cteNamed?, hs]

private theorem known_of_table {name : Name} {schema : String} {records : List ColumnRecord}
    (aliasName : Option String)
    (hs : name.schema = some schema) (h : env.catalog.tableColumns? name = some records) :
    ((Entry.table name (name.schema.getD env.config.defaultSchema) aliasName
        ((env.catalog.objectKind? name).getD .table)).load env.catalog).columns =
      .known (.ofRecords env.catalog
        { schema := some schema, table := some name.name,
          objectKind := env.catalog.objectKind? name } records) := by
  obtain ⟨catalog, _, name⟩ := name
  cases hs
  obtain ⟨table, htable, -⟩ := Option.map_eq_some_iff.1 h
  have hkind : env.catalog.objectKind? ⟨catalog, some schema, name⟩ = some table.kind :=
    congrArg (Option.map TableRecord.kind) htable
  change EntryColumns.load env.catalog _ (.pending ⟨catalog, some schema, name⟩) = _
  simp only [EntryColumns.load, h, hkind, Option.getD_some]
  rfl

/-- The entry of a function with a schema, whose columns name the function
as what they depend on. -/
private def functionEntry (catalog : Catalog) (name : Name) (schema : String)
    (aliasName : Option String) : Entry :=
  let owner : ColumnSource :=
    { schema := some schema, table := some name.name, objectKind := some .function }
  let info (r : ColumnRecord) : ColumnInfo :=
    { ColumnInfo.ofRecord catalog owner r with reference := some (.ofName .function name) }
  { Entry.resolved name.name aliasName
    ((catalog.functionColumns? name).map fun records => .ofInfos (records.map info)) with
    schema := some schema, objectKind := some .function, isFunction := true }

private theorem outcome_addFunction {name : Name} {schema : String}
    (aliasName : Option String) (c : Context) (hs : name.schema = some schema) :
    let e := functionEntry env.catalog name schema aliasName
    (addFunction name aliasName).outcome env c =
      (.ok (), { c with scopes := c.scopes.add e (aliasName.toList ++ [name.name]) }) := by
  obtain ⟨catalog, _, name⟩ := name
  cases hs
  rfl

/-- The entry that such a source adds has the stored columns, once they are looked up. -/
theorem columns_of_adds {e : Entry} (h : Stores env c source owner columns)
    (ha : source.Adds env c e) :
    ∃ infos, (e.load env.catalog).columns = .known (.ofInfos infos) ∧
      List.Forall₂ (ColumnInfo.Keeps env.catalog owner) infos columns := by
  cases h with
  | table aliasName hs h =>
    -- A name with a schema is neither that of a local table nor that of a CTE.
    have hlocal := isLocal_of_schema hs
    have hcte := cteNamed?_of_schema c hs
    cases ha with
    | table => exact ⟨_, known_of_table aliasName hs h, ColumnInfo.keeps_ofRecords ..⟩
    | temporary _ hlocal' => cases hlocal.symm.trans hlocal'
    | cte _ _ hcte' => cases hcte.symm.trans hcte'
  | @function name _ records args aliasName hs h =>
    cases ha with
    | function _ _ hentry =>
      have happend := hentry c
      rw [outcome_addFunction aliasName c hs, ScopeStack.entries_add] at happend
      obtain rfl := List.singleton_injective (List.append_cancel_left happend)
      refine ⟨_, ?_, ColumnInfo.keeps_ofFunction _ _ (.ofName .function name) records⟩
      simp only [functionEntry, h]
      rfl
  | «variable» aliasName hx hf h =>
    cases ha with
    | «variable» =>
      obtain ⟨infos, hbound, hkeeps⟩ := hx.exists_table? hf
      refine ⟨infos, ?_, hkeeps⟩
      rw [h, hbound]
      rfl
  | temporary aliasName hx hf hlocal h =>
    cases ha with
    | temporary =>
      obtain ⟨infos, hbound, hkeeps⟩ := hx.exists_table? hf
      refine ⟨infos, ?_, hkeeps⟩
      rw [h, hbound]
      rfl
    | table _ hlocal' => cases hlocal.symm.trans hlocal'
    | cte _ hlocal' => cases hlocal.symm.trans hlocal'

/-- Such a source is registered without fail, under its alias and its own names. -/
private theorem exists_adds (h : Stores env c source owner columns) (n : Nested) :
    ∃ x e, source.register n = added x ∧ source.Adds env c e ∧ e.forceNullable = false ∧
      x.outcome env c =
      (.ok (), { c with
        scopes := c.scopes.add e (source.alias?.toList ++ source.ownNames env c) }) := by
  cases h with
  | table aliasName hs h =>
    have hlocal := isLocal_of_schema hs
    have hcte := cteNamed?_of_schema c hs
    refine ⟨_, _, rfl, .table aliasName hlocal hcte, rfl, ?_⟩
    unfold addNamed
    rw [hlocal, if_neg Bool.false_ne_true, outcome_bind_of_ok (outcome_get env c)]
    simp only [hcte, Source.ownNames, hlocal]
    rw [if_neg Bool.false_ne_true, ← List.append_assoc]
    rfl
  | function args aliasName hs h =>
    refine ⟨_, _, rfl, .function args aliasName fun c₀ => ?_, rfl,
      outcome_addFunction aliasName c hs⟩
    rw [outcome_addFunction aliasName c₀ hs]
    exact ScopeStack.entries_add ..
  | «variable» aliasName hx hf h => exact ⟨_, _, rfl, .variable _ aliasName, rfl, rfl⟩
  | temporary aliasName hx hf hlocal h =>
    refine ⟨_, _, rfl, .temporary aliasName hlocal, rfl, ?_⟩
    rw [addNamed, if_pos hlocal, Source.ownNames, if_pos hlocal]
    rfl

/-- Of a context it matters only what its bindings are. -/
theorem of_bindings_eq {c' : Context} (h : Stores env c source owner columns)
    (hb : c'.bindings = c.bindings) :
    Stores env c' source owner columns := by
  cases h with
  | table aliasName hs h => exact .table aliasName hs h
  | function args aliasName hs h => exact .function args aliasName hs h
  | «variable» aliasName hx hf h => exact .variable aliasName hx hf (hb ▸ h)
  | temporary aliasName hx hf hlocal h => exact .temporary aliasName hx hf hlocal (hb ▸ h)

end Stores

/-- The star of a scope with one entry, or of a name that the entry goes by, stands
for the columns of the entry. -/
private theorem expand_of_one {e : Entry} {names : List String} {m : ColumnMap}
    {qualifier : Option String}
    {outer : ScopeStack} (hq : ∀ a, qualifier = some a → a ∈ names)
    (hm : (e.load env.catalog).columns = .known m) :
    (ScopeStack.expand env.catalog qualifier (Scope.add {} e names :: outer)).1 =
      some (m.values.map (·.project e.visibleName e.forceNullable)) := by
  have hproject : (e.load env.catalog).projectAll? =
      some (m.values.map (·.project e.visibleName e.forceNullable)) := by
    rw [Entry.projectAll?, Entry.columnMap?, hm]
    rfl
  cases qualifier with
  | none =>
    have hentries : ScopeStack.entries (Scope.add {} e names :: outer) = [e] := rfl
    rw [ScopeStack.expand_none (by simp [hentries, hproject]), hentries]
    simp [hproject]
  | some a =>
    have hany : names.any (Text.same · a) = true :=
      List.any_eq_true.2 ⟨a, hq a rfl, Text.same_refl a⟩
    have hindex : (ScopeStack.innermost (Scope.add {} e names :: outer)).index? a = some 0 := by
      change (Scope.add {} e names).index? a = some 0
      rw [Scope.index?_add, hany, if_pos rfl]
      rfl
    exact (ScopeStack.expand_some hindex).trans hproject

/-- A block that selects the star of its only source projects the stored columns. -/
private theorem Stores.exists_project {k : Nat} (h : Stores env c source owner columns)
    (hdistinct : (columns.map fun s => Text.fold s.name).Nodup) (block : Select)
    {qualifier : Option String}
    (hq : ∀ a, qualifier = some a → source.alias? = some a) (here : Context)
    (hb : here.bindings = c.bindings) :
    ∃ infos aliasTable c₁,
      ((Body.select { block with items := [.star qualifier], sources := [source] }).project
          (Nested.within k)).outcome env here =
        (.ok ⟨infos.map (·.project aliasTable false), true⟩, c₁) ∧
      List.Forall₂ (ColumnInfo.Keeps env.catalog owner) infos columns := by
  have hhere : Stores env here.pushScope source owner columns := h.of_bindings_eq hb
  obtain ⟨x, e, hregister, hadds, hforced, hx⟩ := hhere.exists_adds (Nested.within k)
  obtain ⟨infos, hknown, hkeeps⟩ := hhere.columns_of_adds hadds
  let names := source.alias?.toList ++ source.ownNames env here.pushScope
  let after : Context := { here.pushScope with scopes := here.pushScope.scopes.add e names }
  have hsources :
      ([source].forM fun t => discard (t.register (Nested.within k))).outcome env here.pushScope =
      (.ok (), after) := by
    have hadded := outcome_added_of_ok hx
    rw [← hregister] at hadded
    exact outcome_bind_eq_ok.2 ⟨(), after, outcome_map_eq_ok.2 ⟨_, hadded, rfl⟩, rfl⟩
  have hvalues : (ColumnMap.ofInfos infos).values = infos :=
    ColumnMap.values_ofInfos (ColumnInfo.nodup_of_keeps hkeeps hdistinct)
  have hexpand : (ScopeStack.expand env.catalog qualifier after.scopes).1 =
      some (infos.map (·.project e.visibleName false)) := by
    rw [← hvalues, ← hforced]
    refine expand_of_one (fun a ha => ?_) hknown
    exact List.mem_append_left _ (Option.mem_toList.2 (hq a ha))
  have hstar : (Item.projectAll (Nested.within k) [.star qualifier]).outcome env after =
      (.ok ⟨infos.map (·.project e.visibleName false), true⟩,
        { after with scopes := (ScopeStack.expand env.catalog qualifier after.scopes).2 }) := by
    change (Except.ok (Projection.mk
      [(ScopeStack.expand env.catalog qualifier after.scopes).1.getD
        [{ aliasTable := qualifier }]].flatten true), _) = _
    rw [hexpand, Option.getD_some, List.flatten_singleton]
    rfl
  exact ⟨infos, e.visibleName, _,
    outcome_between_eq_ok.2 ⟨_, outcome_bind_eq_ok.2 ⟨(), after, hsources, hstar⟩, rfl⟩, hkeeps⟩

/-- Selecting the star of the only source, which stands for an object with stored columns of
distinct names, gives a result set with just these columns, in their order, unless no
further query may be opened. -/
theorem star_shows_stored_columns {k : Nat} {q : Query} {block : Select} {qualifier : Option String}
    (h : Stores env c source owner columns) (hnames : ∀ s ∈ columns, s.name ≠ "")
    (hdistinct : (columns.map fun s => Text.fold s.name).Nodup)
    (hbody : q.body = .select { block with items := [.star qualifier], sources := [source] })
    (hq : ∀ a, qualifier = some a → source.alias? = some a) :
    (c.depth < env.config.maxNestingDepth →
      ∃ set c', ((Nested.within (k + 1)).query q).outcome env c = (.ok set, c') ∧
      List.Forall₂ (ResultColumn.Shows env.catalog owner) set.columns columns) ∧
    (env.config.maxNestingDepth ≤ c.depth →
      (((Nested.within (k + 1)).query q).outcome env c).1 =
        .error (.nestingTooDeep env.config.maxNestingDepth)) := by
  refine ⟨fun hd => ?_, fun hd => ?_⟩
  · obtain ⟨infos, aliasTable, c₁, hproject, hkeeps⟩ :=
      h.exists_project (k := k) hdistinct block hq (c.inside q) rfl
    rw [← hbody] at hproject
    refine ⟨_, _, outcome_query_eq_ok.2 ⟨hd, _, _, hproject, rfl, rfl⟩, ?_⟩
    have hname := ColumnInfo.map_name_of_keeps hkeeps
    -- Columns with distinct names that are not empty keep them when the result set is named.
    rw [Query.columns_resultOf, ResultColumn.assignNames_eq_self]
    · rw [List.forall₂_map_left_iff]
      exact hkeeps.imp fun _ _ h => h aliasTable
    · intro column hcolumn
      obtain ⟨info, hi, rfl⟩ := List.mem_map.1 hcolumn
      have hmem : info.name ∈ columns.map (·.name) := hname ▸ List.mem_map_of_mem hi
      obtain ⟨s, hs, he⟩ := List.mem_map.1 hmem
      exact ⟨rfl, fun hempty => hnames s hs (he.trans hempty)⟩
    · rw [List.map_map]
      exact ColumnInfo.nodup_of_keeps hkeeps hdistinct
  · rw [Nested.within, outcome_opening, if_neg (by omega)]

end Star

namespace TableVariable

/-- `DECLARE @t TABLE (Id int NOT NULL, Total decimal)`. -/
def definitions : List ColumnDefinition :=
  [⟨"Id", .bare "int", some false⟩, ⟨"Total", .bare "decimal", none⟩]

def env : Env := ⟨.builtinOnly {}, {}⟩

/-- What a walk has found behind the declaration. -/
def found : Findings :=
  { context :=
      { bindings := ({} : Bindings).bindTable "@t"
          (.ofDefinitions env.catalog "@t" definitions) } }

def block : Select :=
  ⟨false, none, [.star (some "a")], none, [.var "@T" (some "a")], none, [], none⟩

/-- `SELECT a.* FROM @T AS a`. -/
def query : Query := ⟨.select block, [], [], none, none⟩

end TableVariable

open TableVariable in
theorem star_shows_stored_columns_variable :
    Walk.declareTable "@t" definitions env {} = .ok ((), found) ∧
      ∃ set c', ((Nested.within 1).query query).outcome env found.context = (.ok set, c') ∧
        List.Forall₂ (ResultColumn.Shows env.catalog { table := some "@t" }) set.columns
          [⟨"Id", .bare "int", false⟩, ⟨"Total", .bare "decimal", true⟩] := by
  have hf : Walk.declareTable "@t" definitions env {} = .ok ((), found) := rfl
  have hname : Text.fold "@T" = Text.fold "@t" := by decide
  have h : Stores env found.context (.var "@T" (some "a")) { table := some "@t" }
      (definitions.map (·.stored)) :=
    .variable (some "a") (.declaration "@t" definitions) hf
      (congrArg found.context.bindings.tables.get? hname)
  have hbody : query.body =
      .select { block with items := [.star (some "a")], sources := [.var "@T" (some "a")] } := rfl
  exact ⟨hf,
    (star_shows_stored_columns h (by decide) (by decide) hbody fun _ ha => ha).1 (by decide)⟩

end ResultShape
