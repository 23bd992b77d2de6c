import ResultShape.Model.Document
import ResultShape.Proofs.Json.Record
/-! Documents of routine models: what is written of a model is read back as that model. Each
record is read back field by field; columns and JSON fields, which hold records of their own
kind, by induction on the tree. -/
namespace ResultShape

open FieldReader Json

/-- A list that is left out when it is empty is read back by a reader to which an
absent list is an empty one. -/
theorem FieldReader.Reads.unlessEmpty {α β : Type} {cell : Json → α}
    {fields : List (String × Option Json)}
    {cells : List (String × α)} {key : String} {read : α → Option (List β)}
    {items : List Json} {bs : List β}
    (h : Written cell fields cells) (hf : fields.lookup key = some (unlessEmpty items))
    (hnil : read (cell (.array [])) = some []) (hr : read (cell (.array items)) = some bs) :
    Reads cells (FieldReader.withDefault key [] read) bs := by
  cases items with
  | nil =>
    obtain rfl : [] = bs := Option.some.inj (hnil.symm.trans hr)
    exact .withDefault_of_absent h hf
  | cons item items => exact .withDefault h hf hr

/-- Null is no text, and no record. -/
private theorem nullable_text (s : String) : nullable text? (.text s) = some (some s) := rfl

theorem Name.ofJson?_toJson (n : Name) : ofJson? n.toJson = some n := by
  refine record?_ofFields (by simp) fun cells h => ?_
  exact .bind (.optional h rfl nullable_text) <| .bind (.optional h rfl nullable_text) <|
    .bind (.required h rfl rfl) <| .pure n

theorem SqlType.ofJson?_toJson (t : SqlType) : ofJson? t.toJson = some t := by
  have hlength (n : Int32) : nullable int32? (ofInt32 n) = some (some n) :=
    nullable_eq_some rfl (int32?_ofInt32 n)
  have hdigits (n : UInt8) : nullable uint8? (ofUInt8 n) = some (some n) :=
    nullable_eq_some rfl (uint8?_ofUInt8 n)
  refine record?_ofFields (by simp) fun cells h => ?_
  exact .bind (.required h rfl rfl) <| .bind (.optional h rfl hlength) <|
    .bind (.optional h rfl hdigits) <|
    .bind (.optional h rfl hdigits) <| .pure t

theorem ObjectKind.ofJson?_toJson (k : ObjectKind) : ofJson? k.toJson = some k := ofText?_text k

theorem Reference.ofJson?_toJson (r : Reference) : ofJson? r.toJson = some r := by
  refine record?_ofFields (by simp) fun cells h => ?_
  exact .bind (.required h rfl r.kind.ofJson?_toJson) <| .bind (.optional h rfl nullable_text) <|
    .bind (.optional h rfl nullable_text) <| .bind (.required h rfl rfl) <| .pure r

theorem ExecutedRoutine.ofJson?_toJson (e : ExecutedRoutine) : ofJson? e.toJson = some e := by
  refine record?_ofFields (by simp) fun cells h => ?_
  exact .bind (.optional h rfl nullable_text) <| .bind (.required h rfl rfl) <|
    .bind (.required h rfl rfl) <| .pure e

theorem ColumnSource.ofJson?_toJson (s : ColumnSource) : ofJson? s.toJson = some s := by
  have hkind (k : ObjectKind) : nullable ObjectKind.ofJson? k.toJson = some (some k) :=
    nullable_eq_some rfl k.ofJson?_toJson
  refine record?_ofFields (by simp) fun cells h => ?_
  exact .bind (.optional h rfl nullable_text) <| .bind (.optional h rfl nullable_text) <|
    .bind (.optional h rfl nullable_text) <| .bind (.optional h rfl hkind) <| .pure s

theorem JsonInfo.ofJson?_toJson (i : JsonInfo) : ofJson? i.toJson = some i := by
  refine record?_ofFields (by simp) fun cells h => ?_
  exact .bind (.required h rfl rfl) <| .bind (.optional h rfl nullable_text) <|
    .bind (.withDefault h rfl rfl) <|
    .bind (.withDefault h rfl rfl) <| .bind (.withDefault h rfl rfl) <| .pure i

mutual

private theorem ResultColumn.tree?_toJson :
    (c : ResultColumn) → tree? ResultColumn.fields c.toJson = some c
  | ⟨name, aliasName, aliasTable, source, sqlType, userType, isNullable, isAmbiguous, reference,
      aggregate, json, children⟩ => by
    rw [toJson]
    refine tree?_ofFields (by simp) fun cells h => ?_
    exact .bind (.required h rfl rfl) <| .bind (.optional h rfl nullable_text) <|
      .bind (.optional h rfl nullable_text) <|
      .bind (.optional h rfl fun s => nullable_eq_some rfl s.ofJson?_toJson) <|
      .bind (.optional h rfl fun t => nullable_eq_some rfl t.ofJson?_toJson) <|
      .bind (.optional h rfl fun n => nullable_eq_some rfl n.ofJson?_toJson) <|
      .bind (.optional h rfl fun _ => rfl) <| .bind (.withDefault h rfl rfl) <|
      .bind (.optional h rfl fun r => nullable_eq_some rfl r.ofJson?_toJson) <|
      .bind (.optional h rfl nullable_text) <|
      .bind (.optional h rfl fun i => nullable_eq_some rfl i.ofJson?_toJson) <|
      .bind (.unlessEmpty h rfl rfl (ResultColumn.listOfJson?_listToJson children)) <| .pure _

/-- Columns are read back with all that is inside them. -/
theorem ResultColumn.listOfJson?_listToJson :
    (cs : List ResultColumn) → listOfJson? (.array (listToJson cs)) = some cs
  | [] => rfl
  | c :: cs => by
    have hcs : allTrees? fields (listToJson cs) = some cs := ResultColumn.listOfJson?_listToJson cs
    rw [listOfJson?, trees?, listToJson, allTrees?, c.tree?_toJson, hcs]
    rfl

end

mutual

private theorem JsonField.tree?_toJson : (f : JsonField) → tree? JsonField.fields f.toJson = some f
  | ⟨name, path, isArray, children⟩ => by
    rw [toJson]
    refine tree?_ofFields (by simp) fun cells h => ?_
    exact .bind (.required h rfl rfl) <| .bind (.required h rfl rfl) <|
      .bind (.required h rfl rfl) <|
      .bind (.unlessEmpty h rfl rfl (JsonField.listOfJson?_listToJson children)) <| .pure _

/-- JSON fields are read back with all that is inside them. -/
theorem JsonField.listOfJson?_listToJson :
    (fs : List JsonField) → listOfJson? (.array (listToJson fs)) = some fs
  | [] => rfl
  | f :: fs => by
    have hfs : allTrees? fields (listToJson fs) = some fs := JsonField.listOfJson?_listToJson fs
    rw [listOfJson?, trees?, listToJson, allTrees?, f.tree?_toJson, hfs]
    rfl

end

theorem ResultSet.ofJson?_toJson (s : ResultSet) : ofJson? s.toJson = some s := by
  refine record?_ofFields (by simp) fun cells h => ?_
  exact .bind (.required h rfl (ResultColumn.listOfJson?_listToJson _)) <|
    .bind (.withDefault h rfl rfl) <|
    .bind (.withDefault h rfl rfl) <| .bind (.optional h rfl nullable_text) <|
      .bind (.withDefault h rfl rfl) <|
    .bind (.optional h rfl fun _ => rfl) <| .bind (.withDefault h rfl rfl) <|
    .bind (.unlessEmpty h rfl rfl (JsonField.listOfJson?_listToJson _)) <|
    .bind (.optional h rfl fun r => nullable_eq_some rfl r.ofJson?_toJson) <| .pure s

/-- A routine model is read back from the document that it is written as, whatever it holds. -/
theorem RoutineModel.ofJson?_toJson_eq_some (m : RoutineModel) : ofJson? m.toJson = some m := by
  refine record?_ofFields (by simp) fun cells h => ?_
  exact .bind (.required h rfl (list?_map ResultSet.ofJson?_toJson _)) <|
    .bind (.unlessEmpty h rfl rfl (list?_map ExecutedRoutine.ofJson?_toJson _)) <|
    .bind (.unlessEmpty h rfl rfl (list?_map Reference.ofJson?_toJson _)) <| .pure m

end ResultShape
