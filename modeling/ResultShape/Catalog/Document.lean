import ResultShape.Catalog.Basic
import ResultShape.Catalog.Error
import ResultShape.Json.Numbers
import ResultShape.Json.Reader
import ResultShape.Json.Record
/-! Snapshots read from documents: each record is read by itself, and one
that does not read is skipped. -/
namespace ResultShape

open FieldReader

namespace ColumnRecord

/-- The fields of a column; `nullableByDefault` is its nullability where the record does not say. -/
def fieldsWith (nullableByDefault : Bool) : FieldReader Json ColumnRecord := do
  let name ← required "name" Json.text?
  let typeName ← required "type_name" Json.text?
  let typeSchema ← optional "type_schema" (Json.nullable Json.text?)
  let maxLength ← optional "max_length" (Json.nullable Json.int32?)
  let precision ← optional "precision" (Json.nullable Json.uint8?)
  let scale ← optional "scale" (Json.nullable Json.uint8?)
  let isNullable ← withDefault "is_nullable" nullableByDefault Json.bool?
  return { name, typeName, typeSchema, maxLength, precision, scale, isNullable }

def fields : FieldReader Json ColumnRecord := fieldsWith true

def ofJson? (j : Json) : Option ColumnRecord := j.record? fields

def toJson (r : ColumnRecord) : Json :=
  .ofFields [("name", some (.text r.name)), ("type_name", some (.text r.typeName)),
    ("type_schema", r.typeSchema.map .text), ("max_length", r.maxLength.map Json.ofInt32),
    ("precision", r.precision.map Json.ofUInt8), ("scale", r.scale.map Json.ofUInt8),
    ("is_nullable", some (.bool r.isNullable))]

end ColumnRecord

namespace ScalarTypeRecord

def fields : FieldReader Json ScalarTypeRecord := do
  let catalog ← optional "catalog" (Json.nullable Json.text?)
  let schema ← required "schema" Json.text?
  let name ← required "name" Json.text?
  let base ← required "base_type" Json.text?
  let maxLength ← optional "max_length" (Json.nullable Json.int32?)
  let precision ← optional "precision" (Json.nullable Json.uint8?)
  let scale ← optional "scale" (Json.nullable Json.uint8?)
  let isNullable ← optional "is_nullable" (Json.nullable Json.bool?)
  return { catalog, schema, name, base, maxLength, precision, scale, isNullable }

def ofJson? (j : Json) : Option ScalarTypeRecord := j.record? fields

end ScalarTypeRecord

namespace TableRecord

def fields : FieldReader Json TableRecord := do
  let catalog ← optional "catalog" (Json.nullable Json.text?)
  let schema ← required "schema" Json.text?
  let name ← required "name" Json.text?
  let isView ← withDefault "is_view" false Json.bool?
  let columns ← required "columns" (Json.list? ColumnRecord.ofJson?)
  return { catalog, schema, name, isView, columns }

def ofJson? (j : Json) : Option TableRecord := j.record? fields

end TableRecord

namespace RowTypeRecord

def fields : FieldReader Json RowTypeRecord := do
  let schema ← required "schema" Json.text?
  let name ← required "name" Json.text?
  let columns ← required "columns" (Json.list? ColumnRecord.ofJson?)
  return { schema, name, columns }

def ofJson? (j : Json) : Option RowTypeRecord := j.record? fields

end RowTypeRecord

namespace Snapshot

/-- The four lists of records of a snapshot document. -/
structure Sections where
  scalarTypes : List Json
  tables : List Json
  functions : List Json
  tableTypes : List Json

def Sections.fields : FieldReader Json Sections := do
  let scalarTypes ← withDefault "scalar_types" [] Json.array?
  let tables ← withDefault "tables" [] Json.array?
  let functions ← withDefault "functions" [] Json.array?
  let tableTypes ← withDefault "table_types" [] Json.array?
  return ⟨scalarTypes, tables, functions, tableTypes⟩

/-- Adds the records that read, in turn, and counts the others. -/
def addAll {α : Type} (read : Json → Option α) (add : Snapshot → α → Snapshot) (s : Snapshot)
    (records : List Json) : Snapshot :=
  records.foldl (fun s j =>
    match read j with
    | some r => add s r
    | none => { s with skipped := s.skipped + 1 }) s

def ofSections (d : Sections) : Snapshot :=
  let s := addAll ScalarTypeRecord.ofJson? addScalarType {} d.scalarTypes
  let s := addAll TableRecord.ofJson? addTable s d.tables
  let s := addAll RowTypeRecord.ofJson? addFunction s d.functions
  addAll RowTypeRecord.ofJson? addTableType s d.tableTypes

/-- A snapshot from a document whose sections are lists. -/
def ofJson? (j : Json) : Option Snapshot := (j.record? Sections.fields).map ofSections

/-- How many brackets may be open at once in the text of a snapshot, this number excluded. -/
def depthLimit : Nat := 128

/-- A snapshot from the text of a file; no text stands for a file that cannot be read. -/
def ofFile (path : String) : Option String → Except CatalogError Snapshot
  | none => .error (.unreadable path "no such file")
  | some text =>
    match (Json.read? (some depthLimit) text).bind ofJson? with
    | some s => .ok s
    | none => .error (.invalidDocument path "not a snapshot document")

end Snapshot

end ResultShape
