import ResultShape.Json.Numbers
import ResultShape.Json.Record
import ResultShape.Model.Routine
/-! Routine models as JSON documents: how each part is written, and how it is read back. -/
namespace ResultShape

open FieldReader

namespace Name

def fields : FieldReader Json Name := do
  let catalog ← optional "catalog" (Json.nullable Json.text?)
  let schema ← optional "schema" (Json.nullable Json.text?)
  let name ← required "name" Json.text?
  return ⟨catalog, schema, name⟩

def ofJson? (j : Json) : Option Name := j.record? fields

def toJson (n : Name) : Json :=
  .ofFields [("catalog", n.catalog.map .text), ("schema", n.schema.map .text),
    ("name", some (.text n.name))]

end Name

namespace SqlType

def fields : FieldReader Json SqlType := do
  let base ← required "base_type" Json.text?
  let maxLength ← optional "max_length" (Json.nullable Json.int32?)
  let precision ← optional "precision" (Json.nullable Json.uint8?)
  let scale ← optional "scale" (Json.nullable Json.uint8?)
  return ⟨base, maxLength, precision, scale⟩

def ofJson? (j : Json) : Option SqlType := j.record? fields

def toJson (t : SqlType) : Json :=
  .ofFields [("base_type", some (.text t.base)), ("max_length", t.maxLength.map Json.ofInt32),
    ("precision", t.precision.map Json.ofUInt8), ("scale", t.scale.map Json.ofUInt8)]

end SqlType

namespace ObjectKind

/-- A kind is named by a text, or by the only key of an object whose value is null. -/
def ofJson? : Json → Option ObjectKind
  | .text s => ofText? s
  | .object [(key, .null)] => ofText? key
  | _ => none

def toJson (k : ObjectKind) : Json := .text k.text

end ObjectKind

namespace Reference

def fields : FieldReader Json Reference := do
  let kind ← required "kind" ObjectKind.ofJson?
  let catalog ← optional "catalog" (Json.nullable Json.text?)
  let schema ← optional "schema" (Json.nullable Json.text?)
  let name ← required "name" Json.text?
  return ⟨kind, catalog, schema, name⟩

def ofJson? (j : Json) : Option Reference := j.record? fields

def toJson (r : Reference) : Json :=
  .ofFields [("kind", some r.kind.toJson), ("catalog", r.catalog.map .text),
    ("schema", r.schema.map .text), ("name", some (.text r.name))]

end Reference

namespace ExecutedRoutine

def fields : FieldReader Json ExecutedRoutine := do
  let catalog ← optional "catalog" (Json.nullable Json.text?)
  let schema ← required "schema" Json.text?
  let name ← required "name" Json.text?
  return ⟨catalog, schema, name⟩

def ofJson? (j : Json) : Option ExecutedRoutine := j.record? fields

def toJson (e : ExecutedRoutine) : Json :=
  .ofFields [("catalog", e.catalog.map .text), ("schema", some (.text e.schema)),
    ("name", some (.text e.name))]

end ExecutedRoutine

namespace ColumnSource

def fields : FieldReader Json ColumnSource := do
  let schema ← optional "schema" (Json.nullable Json.text?)
  let table ← optional "table" (Json.nullable Json.text?)
  let column ← optional "column" (Json.nullable Json.text?)
  let objectKind ← optional "object_kind" (Json.nullable ObjectKind.ofJson?)
  return ⟨schema, table, column, objectKind⟩

def ofJson? (j : Json) : Option ColumnSource := j.record? fields

def toJson (s : ColumnSource) : Json :=
  .ofFields [("schema", s.schema.map .text), ("table", s.table.map .text),
    ("column", s.column.map .text), ("object_kind", s.objectKind.map ObjectKind.toJson)]

end ColumnSource

namespace JsonInfo

def fields : FieldReader Json JsonInfo := do
  let isArray ← required "is_array" Json.bool?
  let rootName ← optional "root_name" (Json.nullable Json.text?)
  let includeNulls ← withDefault "include_nulls" false Json.bool?
  let isNested ← withDefault "is_nested" false Json.bool?
  let shapeUnknown ← withDefault "shape_unknown" false Json.bool?
  return ⟨isArray, rootName, includeNulls, isNested, shapeUnknown⟩

def ofJson? (j : Json) : Option JsonInfo := j.record? fields

def toJson (i : JsonInfo) : Json :=
  .ofFields [("is_array", some (.bool i.isArray)), ("root_name", i.rootName.map .text),
    ("include_nulls", some (.bool i.includeNulls)), ("is_nested", some (.bool i.isNested)),
    ("shape_unknown", some (.bool i.shapeUnknown))]

end JsonInfo

/-- A list that is left out of its record when it is empty. -/
def unlessEmpty (items : List Json) : Option Json :=
  if items.isEmpty then none else some (.array items)

namespace ResultColumn

def fields : FieldReader (Json.Cell ResultColumn) ResultColumn := do
  let name ← required "name" (·.value.text?)
  let aliasName ← optional "alias" (Json.nullable Json.text? ·.value)
  let aliasTable ← optional "alias_table" (Json.nullable Json.text? ·.value)
  let source ← optional "source" (Json.nullable ColumnSource.ofJson? ·.value)
  let sqlType ← optional "sql_type" (Json.nullable SqlType.ofJson? ·.value)
  let userType ← optional "user_type" (Json.nullable Name.ofJson? ·.value)
  let isNullable ← optional "is_nullable" (Json.nullable Json.bool? ·.value)
  let isAmbiguous ← withDefault "is_ambiguous" false (·.value.bool?)
  let reference ← optional "reference" (Json.nullable Reference.ofJson? ·.value)
  let aggregate ← optional "aggregate" (Json.nullable Json.text? ·.value)
  let json ← optional "json" (Json.nullable JsonInfo.ofJson? ·.value)
  let children ← withDefault "children" [] (·.records?)
  return { name, aliasName, aliasTable, source, sqlType, userType, isNullable, isAmbiguous,
           reference, aggregate, json, children }

def ofJson? (j : Json) : Option ResultColumn := j.tree? fields

def listOfJson? (j : Json) : Option (List ResultColumn) := j.trees? fields

mutual

def toJson : ResultColumn → Json
  | ⟨name, aliasName, aliasTable, source, sqlType, userType, isNullable, isAmbiguous, reference,
      aggregate, json, children⟩ =>
    .ofFields [("name", some (.text name)), ("alias", aliasName.map .text),
      ("alias_table", aliasTable.map .text), ("source", source.map ColumnSource.toJson),
      ("sql_type", sqlType.map SqlType.toJson), ("user_type", userType.map Name.toJson),
      ("is_nullable", isNullable.map .bool), ("is_ambiguous", some (.bool isAmbiguous)),
      ("reference", reference.map Reference.toJson), ("aggregate", aggregate.map .text),
      ("json", json.map JsonInfo.toJson), ("children", unlessEmpty (listToJson children))]

def listToJson : List ResultColumn → List Json
  | [] => []
  | c :: cs => c.toJson :: listToJson cs

end

end ResultColumn

namespace JsonField

def fields : FieldReader (Json.Cell JsonField) JsonField := do
  let name ← required "name" (·.value.text?)
  let path ← required "path" (·.value.text?)
  let isArray ← required "is_array" (·.value.bool?)
  let children ← withDefault "children" [] (·.records?)
  return { name, path, isArray, children }

def listOfJson? (j : Json) : Option (List JsonField) := j.trees? fields

mutual

def toJson : JsonField → Json
  | ⟨name, path, isArray, children⟩ =>
    .ofFields [("name", some (.text name)), ("path", some (.text path)),
      ("is_array", some (.bool isArray)), ("children", unlessEmpty (listToJson children))]

def listToJson : List JsonField → List Json
  | [] => []
  | f :: fs => f.toJson :: listToJson fs

end

end JsonField

namespace ResultSet

def fields : FieldReader Json ResultSet := do
  let columns ← required "columns" ResultColumn.listOfJson?
  let returnsJson ← withDefault "returns_json" false Json.bool?
  let returnsJsonArray ← withDefault "returns_json_array" false Json.bool?
  let jsonRootName ← optional "json_root_name" (Json.nullable Json.text?)
  let jsonIncludeNulls ← withDefault "json_include_nulls" false Json.bool?
  let jsonSingleRowGuaranteed ← optional "json_single_row_guaranteed" (Json.nullable Json.bool?)
  let hasWildcardProjection ← withDefault "has_wildcard_projection" false Json.bool?
  let jsonShape ← withDefault "json_shape" [] JsonField.listOfJson?
  let reference ← optional "reference" (Json.nullable Reference.ofJson?)
  return { columns, returnsJson, returnsJsonArray, jsonRootName, jsonIncludeNulls,
           jsonSingleRowGuaranteed, hasWildcardProjection, jsonShape, reference }

def ofJson? (j : Json) : Option ResultSet := j.record? fields

def toJson (r : ResultSet) : Json :=
  .ofFields [("columns", some (.array (ResultColumn.listToJson r.columns))),
    ("returns_json", some (.bool r.returnsJson)),
    ("returns_json_array", some (.bool r.returnsJsonArray)),
    ("json_root_name", r.jsonRootName.map .text),
    ("json_include_nulls", some (.bool r.jsonIncludeNulls)),
    ("json_single_row_guaranteed", r.jsonSingleRowGuaranteed.map .bool),
    ("has_wildcard_projection", some (.bool r.hasWildcardProjection)),
    ("json_shape", unlessEmpty (JsonField.listToJson r.jsonShape)),
    ("reference", r.reference.map Reference.toJson)]

end ResultSet

namespace RoutineModel

def fields : FieldReader Json RoutineModel := do
  let resultSets ← required "result_sets" (Json.list? ResultSet.ofJson?)
  let executedRoutines ← withDefault "executed_routines" [] (Json.list? ExecutedRoutine.ofJson?)
  let parameterTypes ← withDefault "parameter_types" [] (Json.list? Reference.ofJson?)
  return { resultSets, executedRoutines, parameterTypes }

def ofJson? (j : Json) : Option RoutineModel := j.record? fields

def toJson (m : RoutineModel) : Json :=
  .ofFields [("result_sets", some (.array (m.resultSets.map ResultSet.toJson))),
    ("executed_routines", unlessEmpty (m.executedRoutines.map ExecutedRoutine.toJson)),
    ("parameter_types", unlessEmpty (m.parameterTypes.map Reference.toJson))]

end RoutineModel

end ResultShape
