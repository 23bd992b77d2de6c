import Mathlib.Data.List.Find
import Mathlib.Data.List.Induction
import ResultShape.Catalog.Snapshot
import ResultShape.Proofs.Text.Dotted
/-! Lookups: what a snapshot answers once records were added to it. Under each key stands the last
record that was added with this key, and where neither schemas nor names hold dots, a key belongs
to one schema and one name. -/
namespace ResultShape

/-- One more record for a snapshot. -/
inductive Addition where
  | scalarType (record : ScalarTypeRecord)
  | table (record : TableRecord)
  | function (record : RowTypeRecord)
  | tableType (record : RowTypeRecord)

namespace Addition

def scalarType? : Addition → Option ScalarTypeRecord
  | .scalarType r => some r
  | _ => none

def table? : Addition → Option TableRecord
  | .table r => some r
  | _ => none

def function? : Addition → Option RowTypeRecord
  | .function r => some r
  | _ => none

def tableType? : Addition → Option RowTypeRecord
  | .tableType r => some r
  | _ => none

/-- The schema and the name of the record hold no dot; its catalog may. -/
def Undotted : Addition → Prop
  | .scalarType r => '.' ∉ r.schema.toList ∧ '.' ∉ r.name.toList
  | .table r => '.' ∉ r.schema.toList ∧ '.' ∉ r.name.toList
  | .function r => '.' ∉ r.schema.toList ∧ '.' ∉ r.name.toList
  | .tableType r => '.' ∉ r.schema.toList ∧ '.' ∉ r.name.toList

end Addition

/-- The last of the records that pass a test. -/
def last? {α : Type} (p : α → Bool) (records : List α) : Option α := records.reverse.find? p

namespace Snapshot

def add (s : Snapshot) : Addition → Snapshot
  | .scalarType r => s.addScalarType r
  | .table r => s.addTable r
  | .function r => s.addFunction r
  | .tableType r => s.addTableType r

/-- The snapshot to which records were added in turn. -/
def ofAdditions (additions : List Addition) : Snapshot := additions.foldl add {}

/-- A record with these names is found under a key. -/
def isUnder (key : String) (catalog : Option String) (schema name : String) : Bool :=
  Name.keyOf schema name == key || catalog.any (Name.fullKeyOf · schema name == key)

section Keys

variable {α : Type}

private theorem get?_under (records : Keyed String α) (catalog : Option String)
    (schema name : String) (r : α) (key : String) :
    (under records catalog schema name r).get? key =
      ((some r).filter fun _ => isUnder key catalog schema name).or (records.get? key) := by
  unfold under isUnder
  cases catalog with
  | none =>
    by_cases hk : Name.keyOf schema name = key <;> simp [Keyed.get?_insert, Option.filter, hk]
  | some catalog =>
    by_cases hk : Name.keyOf schema name = key <;> by_cases hf :
      Name.fullKeyOf catalog schema name = key <;>
      simp [Keyed.get?_insert, Option.filter, hk, hf]

private theorem last?_concat (p : α → Bool) (records : List α) (r : α) :
    last? p (records ++ [r]) = ((some r).filter p).or (last? p records) := by
  rw [last?, List.reverse_append, List.reverse_singleton, List.singleton_append, List.find?_cons,
    last?, Option.filter]
  cases p r <;> rfl

/-- If each addition puts its record, if any, into a section under the keys that pass a test, then
the section has under each key the last record that passes. -/
private theorem get?_ofAdditions (part : Snapshot → Keyed String α) (pick : Addition → Option α)
    (test : String → α → Bool) (hempty : part {} = .empty)
    (hadd : ∀ s a key, (part (s.add a)).get? key =
      ((pick a).filter (test key)).or ((part s).get? key))
    (additions : List Addition) (key : String) :
    (part (ofAdditions additions)).get? key = last? (test key) (additions.filterMap pick) := by
  induction additions using List.reverseRecOn with
  | nil =>
    change (part {}).get? key = none
    rw [hempty, Keyed.get?_empty]
  | append_singleton additions a ih =>
    have hlast : ofAdditions (additions ++ [a]) = (ofAdditions additions).add a := List.foldl_append
    rw [hlast, hadd, ih, List.filterMap_append]
    cases hp : pick a with
    | none => simp [hp]
    | some r =>
      have hone : [a].filterMap pick = [r] := by simp [hp]
      rw [hone, last?_concat]

variable (additions : List Addition) (key : String)

theorem get?_scalarTypes : (ofAdditions additions).scalarTypes.get? key =
    last? (fun r => isUnder key r.catalog r.schema r.name)
      (additions.filterMap Addition.scalarType?) := by
  refine get?_ofAdditions Snapshot.scalarTypes _
    (fun key r => isUnder key r.catalog r.schema r.name) rfl (fun s a key => ?_) additions key
  cases a with
  | scalarType r => exact get?_under ..
  | _ => rfl

theorem get?_tables : (ofAdditions additions).tables.get? key =
    last? (fun r => isUnder key r.catalog r.schema r.name)
      (additions.filterMap Addition.table?) := by
  refine get?_ofAdditions Snapshot.tables _ (fun key r => isUnder key r.catalog r.schema r.name) rfl
    (fun s a key => ?_) additions key
  cases a with
  | table r => exact get?_under ..
  | _ => rfl

theorem get?_functions : (ofAdditions additions).functions.get? key =
    last? (fun r => isUnder key none r.schema r.name) (additions.filterMap Addition.function?) := by
  refine get?_ofAdditions Snapshot.functions _ (fun key r => isUnder key none r.schema r.name) rfl
    (fun s a key => ?_) additions key
  cases a with
  | function r => exact get?_under s.functions none r.schema r.name r key
  | _ => rfl

theorem get?_tableTypes : (ofAdditions additions).tableTypes.get? key =
    last? (fun r => isUnder key none r.schema r.name)
      (additions.filterMap Addition.tableType?) := by
  refine get?_ofAdditions Snapshot.tableTypes _ (fun key r => isUnder key none r.schema r.name) rfl
    (fun s a key => ?_) additions key
  cases a with
  | tableType r => exact get?_under s.tableTypes none r.schema r.name r key
  | _ => rfl

end Keys

/-- A record has the schema and the name that are asked for, in any case, and the
catalog where one is asked for. -/
def isAskedFor (catalog : Option String) (schema name : String) (recordCatalog : Option String)
    (recordSchema recordName : String) : Bool :=
  catalog.all (fun c => recordCatalog.any (Text.same · c)) && Text.same recordSchema schema &&
    Text.same recordName name

/-- The key that is looked up first. -/
def askedKey (catalog : Option String) (schema name : String) : String :=
  catalog.elim (Name.keyOf schema name) (Name.fullKeyOf · schema name)

/-- Where there are no dots, the records under the key are those that are asked for. -/
private theorem isUnder_askedKey {schema name recordSchema recordName : String}
    (hs : '.' ∉ schema.toList)
    (hn : '.' ∉ name.toList) (hr : '.' ∉ recordSchema.toList ∧ '.' ∉ recordName.toList)
    (catalog recordCatalog : Option String) :
    isUnder (askedKey catalog schema name) recordCatalog recordSchema recordName =
      isAskedFor catalog schema name recordCatalog recordSchema recordName := by
  cases catalog with
  | none =>
    have hfull :
        recordCatalog.any (Name.fullKeyOf · recordSchema recordName == Name.keyOf schema name) =
          false := by
      cases recordCatalog with
      | none => rfl
      | some c => exact beq_false_of_ne (Text.keyOf_ne_fullKeyOf hs hn hr.2).symm
    rw [isUnder, askedKey, Option.elim_none, hfull, Bool.or_false, Bool.eq_iff_iff, beq_iff_eq,
      Text.keyOf_eq_iff hr.2 hn]
    simp [isAskedFor, Text.same_iff]
  | some catalog =>
    have hkey :
        (Name.keyOf recordSchema recordName == Name.fullKeyOf catalog schema name) = false :=
      beq_false_of_ne (Text.keyOf_ne_fullKeyOf hr.1 hr.2 hn)
    rw [isUnder, askedKey, Option.elim_some, hkey, Bool.false_or]
    cases recordCatalog with
    | none => rfl
    | some c =>
      rw [Option.any_some, Bool.eq_iff_iff, beq_iff_eq, Text.fullKeyOf_eq_iff hr.1 hs hr.2 hn]
      simp [isAskedFor, Text.same_iff, and_assoc]

private theorem last?_congr {α : Type} {p q : α → Bool} {records : List α}
    (h : ∀ r ∈ records, p r = q r) :
    last? p records = last? q records := List.find?_congr fun r hr => h r (List.mem_reverse.1 hr)

private theorem of_mem_filterMap {α : Type} {P : α → Prop} {additions : List Addition}
    (pick : Addition → Option α)
    (hpick : ∀ a r, pick a = some r → a.Undotted → P r) (hadded : ∀ a ∈ additions, a.Undotted) :
    ∀ r ∈ additions.filterMap pick, P r := by
  intro r hr
  obtain ⟨a, ha, h⟩ := List.mem_filterMap.1 hr
  exact hpick a r h (hadded a ha)

/-- Where neither schemas nor names hold dots, a lookup answers with the last record that was
added with the schema and the name asked for, whatever their case. One with a catalog asks
for this catalog, too; if there is no such record, a table is then looked up without it, and
a scalar type is not found. -/
theorem lookups_faithful {additions : List Addition} (hadded : ∀ a ∈ additions, a.Undotted)
    {schema name : String} (hs : '.' ∉ schema.toList) (hn : '.' ∉ name.toList) :
    let s := ofAdditions additions
    let table (catalog : Option String) :=
      last? (fun r => isAskedFor catalog schema name r.catalog r.schema r.name)
        (additions.filterMap Addition.table?)
    let scalarType (catalog : Option String) :=
      last? (fun r => isAskedFor catalog schema name r.catalog r.schema r.name)
        (additions.filterMap Addition.scalarType?)
    let function :=
      last? (fun r => isAskedFor none schema name none r.schema r.name)
        (additions.filterMap Addition.function?)
    let tableType :=
      last? (fun r => isAskedFor none schema name none r.schema r.name)
        (additions.filterMap Addition.tableType?)
    ∀ catalog,
      s.tableColumns? schema name catalog = ((table catalog).or (table none)).map (·.columns) ∧
      s.objectKind? schema name catalog = ((table catalog).or (table none)).map (·.kind) ∧
      s.scalarType? ⟨catalog, some schema, name⟩ = (scalarType catalog).map (·.facts) ∧
      s.functionColumns? schema name = function.map (·.columns) ∧
      s.tableTypeColumns? schema name = tableType.map (·.columns) := by
  intro s table scalarType function tableType catalog
  have htables (catalog : Option String) :
      s.tables.get? (askedKey catalog schema name) = table catalog := by
    refine (get?_tables additions _).trans (last?_congr fun r hr => isUnder_askedKey hs hn ?_ _ _)
    exact of_mem_filterMap Addition.table? (by rintro (_ | _ | _ | _) r ⟨⟩ h; exact h) hadded r hr
  have htable : s.table? schema name catalog = (table catalog).or (table none) := by
    cases catalog with
    | none => rw [Option.or_self, ← htables none]; rfl
    | some catalog => rw [← htables none, ← htables (some catalog)]; rfl
  have hscalar : s.scalarTypes.get? (askedKey catalog schema name) = scalarType catalog := by
    refine (get?_scalarTypes additions _).trans
      (last?_congr fun r hr => isUnder_askedKey hs hn ?_ _ _)
    exact of_mem_filterMap Addition.scalarType?
      (by rintro (_ | _ | _ | _) r ⟨⟩ h; exact h) hadded r hr
  have hfunction : s.functions.get? (askedKey none schema name) = function := by
    refine (get?_functions additions _).trans
      (last?_congr fun r hr => isUnder_askedKey hs hn ?_ _ _)
    exact of_mem_filterMap Addition.function?
      (by rintro (_ | _ | _ | _) r ⟨⟩ h; exact h) hadded r hr
  have htableType : s.tableTypes.get? (askedKey none schema name) = tableType := by
    refine (get?_tableTypes additions _).trans
      (last?_congr fun r hr => isUnder_askedKey hs hn ?_ _ _)
    exact of_mem_filterMap Addition.tableType?
      (by rintro (_ | _ | _ | _) r ⟨⟩ h; exact h) hadded r hr
  refine ⟨congrArg _ htable, congrArg _ htable, ?_, congrArg _ hfunction, congrArg _ htableType⟩
  rw [← hscalar]
  cases catalog <;> exact Option.map_eq_bind.symm

/-- A table with one column of this name. -/
private def tableOf (catalog : Option String) (schema column : String) : Addition :=
  .table ⟨catalog, schema, "Orders", false, [⟨column, "int", none, none, none, none, true⟩]⟩

private def columnNames (columns : Option (List ColumnRecord)) : Option (List String) :=
  columns.map (·.map (·.name))

/-- The table of one catalog, then that of another one, and then the first
one again in another spelling. -/
theorem lookups_faithful_catalogs :
    let additions :=
      [tableOf (some "a.shop") "dbo" "x", tableOf (some "b") "dbo" "y",
        tableOf (some "A.Shop") "DBO" "z"]
    (∀ a ∈ additions, a.Undotted) ∧ '.' ∉ "dbo".toList ∧ '.' ∉ "orders".toList ∧
      columnNames ((ofAdditions additions).tableColumns? "dbo" "orders" (some "a.shop")) =
        some ["z"] ∧
      columnNames ((ofAdditions additions).tableColumns? "dbo" "orders" (some "b")) = some ["y"] ∧
      columnNames ((ofAdditions additions).tableColumns? "dbo" "orders" (some "c")) =
        some ["z"] := by
  intro additions
  have hadded : ∀ a ∈ additions, a.Undotted := by
    intro a ha
    simp only [additions, List.mem_cons, List.not_mem_nil, or_false] at ha
    rcases ha with rfl | rfl | rfl <;> exact ⟨by decide, by decide⟩
  have hs : '.' ∉ "dbo".toList := by decide
  have hn : '.' ∉ "orders".toList := by decide
  have hlookup := lookups_faithful hadded hs hn
  refine ⟨hadded, hs, hn, ?_, ?_, ?_⟩
  · rw [(hlookup (some "a.shop")).1]
    decide
  · rw [(hlookup (some "b")).1]
    decide
  · rw [(hlookup (some "c")).1]
    decide

/-- A table without a catalog takes the place of a table of a catalog, if its schema reads like
catalog and schema of the other one. -/
theorem lookup_of_dotted_schema :
    let s := ofAdditions [tableOf (some "shop") "dbo" "x", tableOf none "shop.dbo" "y"]
    columnNames (s.tableColumns? "dbo" "Orders" (some "shop")) = some ["y"] ∧
      Text.same "shop.dbo" "dbo" = false := by
  decide

end Snapshot

end ResultShape
