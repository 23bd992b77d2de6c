import Mathlib.Algebra.Ring.Nat
import ResultShape.Catalog.Document
import ResultShape.Proofs.Catalog.Lookups
import ResultShape.Proofs.Json.Row
/-! Sections of snapshot documents: each element of a section is read by itself, and one that does
not read as a record of its section leaves no trace but in the number of those that were skipped.
The others are added to the snapshot in turn. -/
namespace ResultShape

namespace Snapshot

/-- The lists of records that a snapshot document is made of. -/
inductive Section where
  | scalarTypes
  | tables
  | functions
  | tableTypes
  deriving DecidableEq, Repr

namespace Section

/-- The sections in the order in which they are loaded. -/
def all : List Section := [.scalarTypes, .tables, .functions, .tableTypes]

def key : Section → String
  | .scalarTypes => "scalar_types"
  | .tables => "tables"
  | .functions => "functions"
  | .tableTypes => "table_types"

/-- Its place in a document that is written without keys. -/
def place : Section → Nat
  | .scalarTypes => 0
  | .tables => 1
  | .functions => 2
  | .tableTypes => 3

/-- The value that a document holds for the section. -/
def value? (s : Section) (document : Json) : Option Json := document.field? s.key s.place

/-- The elements of the section, which is empty where the document has none. -/
def elements (s : Section) (document : Json) : List Json :=
  ((s.value? document).bind Json.array?).getD []

/-- The element decodes as a record of the section. -/
def reads : Section → Json → Bool
  | .scalarTypes, j => (ScalarTypeRecord.ofJson? j).isSome
  | .tables, j => (TableRecord.ofJson? j).isSome
  | .functions, j => (RowTypeRecord.ofJson? j).isSome
  | .tableTypes, j => (RowTypeRecord.ofJson? j).isSome

/-- The record that an element decodes as. -/
def addition? : Section → Json → Option Addition
  | .scalarTypes, j => (ScalarTypeRecord.ofJson? j).map .scalarType
  | .tables, j => (TableRecord.ofJson? j).map .table
  | .functions, j => (RowTypeRecord.ofJson? j).map .function
  | .tableTypes, j => (RowTypeRecord.ofJson? j).map .tableType

theorem isSome_addition? (s : Section) (j : Json) : (s.addition? j).isSome = s.reads j := by
  cases s <;> exact Option.isSome_map ..

/-- The value that an element holds for its columns, if records of the section have columns. -/
def columns? : Section → Json → Option Json
  | .scalarTypes, _ => none
  | .tables, j => j.field? "columns" 4
  | .functions, j => j.field? "columns" 2
  | .tableTypes, j => j.field? "columns" 2

/-- The section's list without the elements that do not decode. -/
def intact (s : Section) : Json → Json
  | .array items => .array (items.filter s.reads)
  | j => j

end Section

/-- A document whose sections are lists; one that is left out counts as empty. -/
def IsDocument (j : Json) : Prop :=
  (match j with
    | .object _ => True
    | .array items => items.length ≤ Section.all.length
    | _ => False) ∧
  ∀ s : Section, ∀ v, s.value? j = some v → ∃ items, v = .array items

/-- The elements of all the sections. -/
def sections (document : Json) : Sections where
  scalarTypes := Section.scalarTypes.elements document
  tables := Section.tables.elements document
  functions := Section.functions.elements document
  tableTypes := Section.tableTypes.elements document

/-- The number of elements that do not decode as records of their section. -/
def corrupt (document : Json) : Nat :=
  (Section.all.map fun s => (s.elements document).countP fun j => !s.reads j).sum

/-- The records that the other elements decode as, section by section. -/
def additions (document : Json) : List Addition :=
  Section.all.flatMap fun s => (s.elements document).filterMap s.addition?

/-- The document with the elements deleted that do not decode. -/
def intact : Json → Json
  | .object members =>
    .object (members.map fun m => (m.1, (Section.all.find? (·.key == m.1)).elim m.2 (·.intact m.2)))
  | .array items => .array (items.mapIdx fun i item => (Section.all[i]?).elim item (·.intact item))
  | j => j

/-- Two snapshots that give the same answer to every lookup. -/
structure SameAnswers (s s' : Snapshot) : Prop where
  tableColumns : ∀ schema name catalog, s.tableColumns? schema name catalog =
    s'.tableColumns? schema name catalog
  objectKind :
    ∀ schema name catalog, s.objectKind? schema name catalog = s'.objectKind? schema name catalog
  functionColumns : ∀ schema name, s.functionColumns? schema name = s'.functionColumns? schema name
  tableTypeColumns :
    ∀ schema name, s.tableTypeColumns? schema name = s'.tableTypeColumns? schema name
  scalarType : ∀ n, s.scalarType? n = s'.scalarType? n

/-- The same records, and so many more elements that were skipped. -/
def skipping (s : Snapshot) (n : Nat) : Snapshot := { s with skipped := s.skipped + n }

theorem skipping_skipping (s : Snapshot) (m n : Nat) :
    (s.skipping m).skipping n = s.skipping (m + n) := by
  rw [skipping, skipping, skipping, Nat.add_assoc]

/-- No lookup reads how many elements were skipped. -/
theorem sameAnswers_skipping (s : Snapshot) (n : Nat) : (s.skipping n).SameAnswers s :=
  ⟨fun _ _ _ => rfl, fun _ _ _ => rfl, fun _ _ => rfl, fun _ _ => rfl, fun _ => rfl⟩

theorem add_skipping (s : Snapshot) (n : Nat) (a : Addition) :
    (s.skipping n).add a = (s.add a).skipping n := by
  cases a <;> rfl

theorem foldl_add_skipping (s : Snapshot) (n : Nat) (records : List Addition) :
    records.foldl add (s.skipping n) = (records.foldl add s).skipping n := by
  induction records generalizing s with
  | nil => rfl
  | cons r records ih => rw [List.foldl_cons, List.foldl_cons, add_skipping, ih]

/-- The elements that decode are added, as if the others were not there; these are counted. -/
theorem addAll_eq {α : Type} {read : Json → Option α} {addOne : Snapshot → α → Snapshot}
    (toAddition : α → Addition) (hadd : ∀ s r, addOne s r = s.add (toAddition r)) (s : Snapshot)
    (items : List Json) :
    addAll read addOne s items =
      ((items.filterMap fun j => (read j).map toAddition).foldl add s).skipping
        (items.countP fun j => !(read j).isSome) := by
  induction items generalizing s with
  | nil => rfl
  | cons j items ih =>
    cases hj : read j with
    | some r =>
      have hstep :
          addAll read addOne s (j :: items) = addAll read addOne (s.add (toAddition r)) items := by
        rw [addAll, List.foldl_cons, hj, ← hadd]
        rfl
      have hrecord : (read j).map toAddition = some (toAddition r) := by rw [hj, Option.map_some]
      rw [hstep, ih, List.filterMap_cons_some (f := fun j => (read j).map toAddition) hrecord,
        List.foldl_cons, List.countP_cons_of_neg (by simp [hj])]
    | none =>
      have hstep : addAll read addOne s (j :: items) = addAll read addOne (s.skipping 1) items := by
        rw [addAll, List.foldl_cons, hj]
        rfl
      have hrecord : (read j).map toAddition = none := by rw [hj, Option.map_none]
      rw [hstep, ih, foldl_add_skipping, skipping_skipping,
        List.filterMap_cons_none (f := fun j => (read j).map toAddition) hrecord,
        List.countP_cons_of_pos (by simp [hj]), Nat.add_comm]

/-- The elements of a section added to a snapshot. -/
def addSection (t : Snapshot) (s : Section) (items : List Json) : Snapshot :=
  ((items.filterMap s.addition?).foldl add t).skipping (items.countP fun j => !s.reads j)

/-- The sections are loaded in their order, and each as a whole. -/
theorem ofSections_eq (j : Json) :
    ofSections (sections j) = (ofAdditions (additions j)).skipping (corrupt j) := by
  have hscalar (t : Snapshot) (items : List Json) :
      addAll ScalarTypeRecord.ofJson? addScalarType t items = t.addSection .scalarTypes items :=
    addAll_eq .scalarType (fun _ _ => rfl) t items
  have htable (t : Snapshot) (items : List Json) :
      addAll TableRecord.ofJson? addTable t items = t.addSection .tables items :=
    addAll_eq .table (fun _ _ => rfl) t items
  have hfunction (t : Snapshot) (items : List Json) :
      addAll RowTypeRecord.ofJson? addFunction t items = t.addSection .functions items :=
    addAll_eq .function (fun _ _ => rfl) t items
  have htableType (t : Snapshot) (items : List Json) :
      addAll RowTypeRecord.ofJson? addTableType t items = t.addSection .tableTypes items :=
    addAll_eq .tableType (fun _ _ => rfl) t items
  simp only [ofSections, sections, hscalar, htable, hfunction, htableType, addSection,
    foldl_add_skipping, skipping_skipping]
  have hadditions : additions j =
      (Section.scalarTypes.elements j).filterMap Section.scalarTypes.addition? ++
        ((Section.tables.elements j).filterMap Section.tables.addition? ++
          ((Section.functions.elements j).filterMap Section.functions.addition? ++
            (Section.tableTypes.elements j).filterMap Section.tableTypes.addition?)) := by
    simp only [additions, Section.all, List.flatMap_cons, List.flatMap_nil, List.append_nil]
  rw [ofAdditions, hadditions, List.foldl_append, List.foldl_append, List.foldl_append]
  refine congrArg (skipping _) ?_
  simp only [corrupt, Section.all, List.map_cons, List.map_nil, List.sum_cons, List.sum_nil,
    Nat.add_assoc, Nat.add_zero]

theorem skipped_ofAdditions (records : List Addition) : (ofAdditions records).skipped = 0 := by
  have hkept (s : Snapshot) : (records.foldl add s).skipped = s.skipped := by
    induction records generalizing s with
    | nil => rfl
    | cons r records ih => exact (ih _).trans (by cases r <;> rfl)
  exact hkept {}

section Documents

variable {j : Json}

theorem value?_intact (s : Section) (j : Json) :
    s.value? (intact j) = (s.value? j).map s.intact := by
  have hkey : Section.all.find? (·.key == s.key) = some s := by cases s <;> decide
  have hplace : Section.all[s.place]? = some s := by cases s <;> rfl
  cases j with
  | object members =>
    change List.lookup s.key (members.map _) = (members.lookup s.key).map s.intact
    induction members with
    | nil => rfl
    | cons m members ih =>
      rw [List.map_cons, List.lookup_cons, List.lookup_cons]
      by_cases hm : s.key = m.1
      · rw [← hm, beq_self_eq_true, hkey]
        rfl
      · rw [beq_eq_false_iff_ne.2 hm]
        exact ih
  | array items =>
    change (items.mapIdx _)[s.place]? = (items[s.place]?).map s.intact
    rw [List.getElem?_mapIdx, hplace]
    rfl
  | _ => rfl

theorem elements_intact (h : IsDocument j) (s : Section) :
    s.elements (intact j) = (s.elements j).filter s.reads := by
  unfold Section.elements
  rw [value?_intact]
  cases hv : s.value? j with
  | none => rfl
  | some v =>
    obtain ⟨items, rfl⟩ := h.2 s v hv
    rfl

theorem IsDocument.intact (h : IsDocument j) : IsDocument (Snapshot.intact j) := by
  refine ⟨?_, fun s v hv => ?_⟩
  · cases j with
    | array items => exact le_of_eq_of_le List.length_mapIdx h.1
    | _ => exact h.1
  · rw [value?_intact] at hv
    obtain ⟨u, hu, rfl⟩ := Option.map_eq_some_iff.1 hv
    obtain ⟨items, rfl⟩ := h.2 s u hu
    exact ⟨items.filter s.reads, rfl⟩

/-- Each section is found at its own place. -/
theorem record?_sections (h : IsDocument j) : j.record? Sections.fields = some (sections j) := by
  obtain ⟨row, hrow, hend⟩ : ∃ row, Row.ofJson? j = some row ∧
      (row.drop 4 = .listed [] ∨ ∃ members, row.drop 4 = .named members) := by
    cases j with
    | object members => exact ⟨_, rfl, .inr ⟨members, rfl⟩⟩
    | array items =>
      exact ⟨_, rfl,
        .inl ((Row.drop_listed items 4).trans (congrArg _ (List.drop_eq_nil_of_le h.1)))⟩
    | _ => exact absurd h.1 id
  have hfield (s : Section) : FieldReader.withDefault s.key [] Json.array? (row.drop s.place) =
      some (s.elements j, (row.drop s.place).tail) := by
    rw [FieldReader.withDefault_eq, Row.head?_drop hrow]
    unfold Section.elements Section.value?
    cases hv : j.field? s.key s.place with
    | none => rfl
    | some v =>
      obtain ⟨items, rfl⟩ := h.2 s v hv
      rfl
  have hread : Sections.fields row = some (sections j, row.drop 4) :=
    (FieldReader.bind_of_eq (hfield .scalarTypes) _).trans <|
      (FieldReader.bind_of_eq (hfield .tables) _).trans <|
        (FieldReader.bind_of_eq (hfield .functions) _).trans
          (FieldReader.bind_of_eq (hfield .tableTypes) _)
  rw [Json.record?_eq, hrow, Option.bind_some, FieldReader.run?, hread]
  rcases hend with hend | ⟨members, hend⟩ <;> rw [hend]

/-- A document loads the snapshot to which its records were added in turn. -/
theorem ofJson?_eq (h : IsDocument j) :
    ofJson? j = some ((ofAdditions (additions j)).skipping (corrupt j)) := by
  rw [ofJson?, record?_sections h]
  exact congrArg some (ofSections_eq j)

/-- What does not read is not missed. -/
theorem additions_intact (h : IsDocument j) : additions (intact j) = additions j := by
  have hsection (s : Section) :
      (s.elements (intact j)).filterMap s.addition? = (s.elements j).filterMap s.addition? := by
    rw [elements_intact h, List.filterMap_filter]
    refine congrArg (List.filterMap · (s.elements j)) (funext fun e => ?_)
    rw [← s.isSome_addition?]
    cases s.addition? e <;> rfl
  simp only [additions, hsection]

theorem corrupt_intact (h : IsDocument j) : corrupt (intact j) = 0 := by
  have hnone (s : Section) : ((s.elements (intact j)).countP fun e => !s.reads e) = 0 := by
    rw [elements_intact h, List.countP_eq_zero]
    intro e he
    simp [(List.mem_filter.1 he).2]
  simp only [corrupt, hnone]
  rfl

/-- An element of a section is one whole record: it decodes only if all its columns do. -/
theorem Section.exists_of_reads {s : Section} (hs : s.reads j = true) {columns : List Json}
    (hc : s.columns? j = some (.array columns)) {column : Json} (hm : column ∈ columns) :
    ∃ r, ColumnRecord.ofJson? column = some r := by
  -- what is left of the row when its columns are due
  have hcolumns {row : Row Json} (hrow : Row.ofJson? j = some row) {n : Nat}
      {records : List ColumnRecord} (hf : j.field? "columns" n = some (.array columns))
      (hb : ((row.drop n).head? "columns").bind (Json.list? ColumnRecord.ofJson?) = some records) :
      ∃ r, ColumnRecord.ofJson? column = some r := by
    rw [Row.head?_drop hrow, hf] at hb
    exact Json.exists_of_list? hb hm
  have hrowType (hr : (RowTypeRecord.ofJson? j).isSome = true)
      (hf : j.field? "columns" 2 = some (.array columns)) :
      ∃ r, ColumnRecord.ofJson? column = some r := by
    obtain ⟨record, hrecord⟩ := Option.isSome_iff_exists.1 hr
    obtain ⟨row, rest, hrow, hread⟩ := Json.exists_of_record? hrecord
    obtain ⟨schema, -, hread⟩ := FieldReader.of_required hread
    obtain ⟨name, -, hread⟩ := FieldReader.of_required hread
    obtain ⟨records, hrecords, -⟩ := FieldReader.of_required hread
    exact hcolumns hrow hf hrecords
  cases s with
  | scalarTypes => cases hc
  | tables =>
    obtain ⟨record, hrecord⟩ := Option.isSome_iff_exists.1 hs
    obtain ⟨row, rest, hrow, hread⟩ := Json.exists_of_record? hrecord
    obtain ⟨catalog, hread⟩ := FieldReader.of_withDefault hread
    obtain ⟨schema, -, hread⟩ := FieldReader.of_required hread
    obtain ⟨name, -, hread⟩ := FieldReader.of_required hread
    obtain ⟨isView, hread⟩ := FieldReader.of_withDefault hread
    obtain ⟨records, hrecords, -⟩ := FieldReader.of_required hread
    exact hcolumns hrow hc hrecords
  | functions => exact hrowType hs hc
  | tableTypes => exact hrowType hs hc

/-- Whatever a document holds in its sections, it loads; the elements that do not
decode are counted, and without them every lookup is answered the same, from the
other records added in turn. -/
theorem exists_ofJson?_intact (h : IsDocument j) :
    (∃ s s', ofJson? j = some s ∧ ofJson? (intact j) = some s' ∧ s.skipped = corrupt j ∧
      s'.skipped = 0 ∧
      s.SameAnswers s' ∧ s' = ofAdditions (additions j)) ∧
    ∀ s : Section, ∀ e columns column, s.columns? e = some (.array columns) → column ∈ columns →
      ColumnRecord.ofJson? column = none → s.reads e = false := by
  have hintact : ofJson? (intact j) = some (ofAdditions (additions j)) := by
    rw [ofJson?_eq h.intact, corrupt_intact h, additions_intact h]
    rfl
  refine ⟨⟨_, _, ofJson?_eq h, hintact, ?_, skipped_ofAdditions _, sameAnswers_skipping _ _, rfl⟩,
    fun s e columns column hc hm hcolumn => Bool.eq_false_iff.2 fun hs => ?_⟩
  · rw [skipping, skipped_ofAdditions, Nat.zero_add]
  · obtain ⟨r, hr⟩ := Section.exists_of_reads hs hc hm
    exact nomatch hcolumn.symm.trans hr

/-- A table, another record of it with a column that has no type, and a
text where a function is due. -/
def mixedDocument : Json :=
  let id := Json.object [("name", .text "Id"), ("type_name", .text "int")]
  let total := Json.object [("name", .text "Total")]
  let table (columns : List Json) :=
    Json.object [("schema", .text "dbo"), ("name", .text "Orders"), ("columns", .array columns)]
  .object [("tables", .array [table [id], table [id, total]]),
    ("functions", .array [.text "not a record"])]

theorem exists_ofJson?_intact_mixed :
    IsDocument mixedDocument ∧ corrupt mixedDocument = 2 ∧
      ∃ s s', ofJson? mixedDocument = some s ∧ ofJson? (intact mixedDocument) = some s' ∧
        s.skipped = 2 ∧
        s'.skipped = 0 ∧ s.SameAnswers s' ∧ s' = ofAdditions (additions mixedDocument) := by
  have h : IsDocument mixedDocument := by
    refine ⟨trivial, fun s v hv => ?_⟩
    cases s with
    | tables => exact ⟨_, (Option.some.inj hv).symm⟩
    | functions => exact ⟨_, (Option.some.inj hv).symm⟩
    | scalarTypes => cases hv
    | tableTypes => cases hv
  have hcorrupt : corrupt mixedDocument = 2 := rfl
  exact ⟨h, hcorrupt, hcorrupt ▸ (exists_ofJson?_intact h).1⟩

end Documents

end Snapshot

end ResultShape
