import ResultShape.ForJson.Shape
/-! Nested documents: the fields of a document inside a field are those of the document by itself,
with the path of the field in front of every path. -/
namespace ResultShape

namespace JsonField

mutual

/-- The field as it is inside another: every path in it goes on from that of the other. -/
def inside (outer : String) : JsonField → JsonField
  | ⟨name, path, isArray, children⟩ =>
    ⟨name, outer ++ "." ++ path, isArray, allInside outer children⟩

def allInside (outer : String) : List JsonField → List JsonField
  | [] => []
  | f :: fs => f.inside outer :: allInside outer fs

end

theorem allInside_eq_map (outer : String) (fields : List JsonField) :
    allInside outer fields = fields.map (·.inside outer) := by
  induction fields with
  | nil => rfl
  | cons f fs ih => rw [allInside, ih, List.map_cons]

variable {outer : String}

@[simp] theorem path_inside (f : JsonField) : (f.inside outer).path = outer ++ "." ++ f.path := by
  cases f
  rfl

@[simp] theorem inside_leaf (name path : String) :
    (leaf name path).inside outer = leaf name (outer ++ "." ++ path) := rfl

private theorem inside_withChildren (f : JsonField) (children : List JsonField) :
    { f with children }.inside outer =
      { f.inside outer with children := children.map (·.inside outer) } := by
  cases f
  simp only [inside, allInside_eq_map]

private theorem children_inside (f : JsonField) :
    (f.inside outer).children = f.children.map (·.inside outer) := by
  cases f
  simp only [inside, allInside_eq_map]

@[simp] theorem pathUnder_empty (name : String) : pathUnder "" name = name := rfl

/-- The path, inside the other field, of what is at a path of a document; the document
itself is at that of the field. -/
def placed (outer path : String) : String := if path.isEmpty then outer else outer ++ "." ++ path

theorem placed_of_ne_empty {path : String} (h : path ≠ "") :
    placed outer path = outer ++ "." ++ path := by
  rw [placed, if_neg]
  simpa using h

theorem pathUnder_ne_empty {path name : String} (h : path ≠ "" ∨ name ≠ "") :
    pathUnder path name ≠ "" := by
  unfold pathUnder
  split
  · rename_i hp
    simp only [String.isEmpty_iff] at hp
    exact h.resolve_left (not_not_intro hp)
  · simp [String.append_eq_empty_iff]

theorem pathUnder_placed (ho : outer ≠ "") (path name : String) :
    pathUnder (placed outer path) name = outer ++ "." ++ pathUnder path name := by
  unfold placed
  split
  · rename_i hp
    simp [pathUnder, hp, ho]
  · rename_i hp
    simp [pathUnder, hp, String.append_assoc]

private theorem updateFirst_map {p q : JsonField → Bool} {f g h : JsonField → JsonField}
    (hp : ∀ x, p (h x) = q x) (hf : ∀ x, f (h x) = h (g x)) (fields : List JsonField) :
    updateFirst p f (fields.map h) = (updateFirst q g fields).map h := by
  induction fields with
  | nil => rfl
  | cons x xs ih =>
    simp only [List.map_cons, updateFirst, hp]
    split
    · rw [hf, List.map_cons]
    · rw [ih, List.map_cons]

theorem insertAt_cons {make : String → String → JsonField} {name path : String} {rest : List String}
    {fields : List JsonField} (h : rest = [] → False) :
    insertAt make (name :: rest) path fields =
      updateFirst (·.path == pathUnder path name)
        (fun f => { f with children := insertAt make rest (pathUnder path name) f.children })
        (if fields.any (·.path == pathUnder path name) then fields else fields ++
          [leaf name (pathUnder path name)]) := by
  cases rest with
  | nil => exact (h rfl).elim
  | cons => rfl

/-- A field is put into a document inside another field as it is put into the document, if it does
not take the place of the document itself. -/
theorem insertAt_inside (ho : outer ≠ "") {make : String → String → JsonField}
    (hmake : ∀ name path, path ≠ "" →
      make name (outer ++ "." ++ path) = (make name path).inside outer)
    (segments : List String) (path : String) (fields : List JsonField)
    (hs : path ≠ "" ∨ segments.head? ≠ some "") :
    insertAt make segments (placed outer path) (fields.map (·.inside outer)) =
      (insertAt make segments path fields).map (·.inside outer) := by
  induction segments, path, fields using insertAt.induct with
  | case1 path fields => rfl
  | case2 name path fields =>
    have hne : pathUnder path name ≠ "" := pathUnder_ne_empty (hs.imp_right (by simp))
    rw [insertAt, insertAt, pathUnder_placed ho, hmake _ _ hne, List.map_append, List.map_singleton]
  | case3 name rest path fields hrest inner ih =>
    have hne : inner ≠ "" := pathUnder_ne_empty (hs.imp_right (by simp))
    have hinner : pathUnder (placed outer path) name = outer ++ "." ++ inner :=
      pathUnder_placed ho path name
    have hpath (f : JsonField) :
        ((f.inside outer).path == outer ++ "." ++ inner) = (f.path == inner) := by
      rw [path_inside, Bool.eq_iff_iff, beq_iff_eq, beq_iff_eq, String.append_right_inj]
    have hchildren (f : JsonField) :
        { f.inside outer with
          children := insertAt make rest (outer ++ "." ++ inner) (f.inside outer).children } =
          { f with children := insertAt make rest inner f.children }.inside outer := by
      rw [inside_withChildren, children_inside, ← placed_of_ne_empty hne, ih f (.inl hne)]
    have hany : (fields.map (·.inside outer)).any (·.path == outer ++ "." ++ inner) =
        fields.any (·.path == inner) := by
      simp only [List.any_map, Function.comp_def, hpath]
    have hopened : (if fields.any (·.path == inner) then fields.map (·.inside outer)
          else fields.map (·.inside outer) ++ [leaf name (outer ++ "." ++ inner)]) =
        (if fields.any (·.path == inner) then fields else fields ++ [leaf name inner]).map
          (·.inside outer) := by
      split
      · rfl
      · rw [List.map_append, List.map_singleton, inside_leaf]
    rw [insertAt_cons hrest, insertAt_cons hrest, hinner, hany, hopened]
    exact updateFirst_map hpath hchildren _

end JsonField

namespace ResultColumn

open JsonField

variable {outer : String}

mutual

/-- A column inside a document has the same field wherever the document is. -/
theorem fieldAt_inside (ho : outer ≠ "") (c : ResultColumn) (name path : String) (hp : path ≠ "") :
    c.fieldAt name (outer ++ "." ++ path) = (c.fieldAt name path).inside outer := by
  match c with
  | ⟨_, _, _, _, _, _, _, _, _, _, some info, children⟩ =>
    have h := fieldsInto_inside ho children path [] hp
    rw [placed_of_ne_empty hp] at h
    simp only [fieldAt, inside, allInside_eq_map, ← h, List.map_nil]
  | ⟨_, _, _, _, _, _, _, _, _, _, none, children⟩ => rfl

/-- The same of the columns inside a field of the document. -/
private theorem fieldsInto_inside (ho : outer ≠ "") (cs : List ResultColumn) (path : String)
    (fields : List JsonField) (hp : path ≠ "") :
    fieldsInto .path (placed outer path) cs (fields.map (·.inside outer)) =
      (fieldsInto .path path cs fields).map (·.inside outer) := by
  match cs with
  | [] => rfl
  | c :: cs =>
    rw [fieldsInto, fieldsInto, insertAt_inside ho (fieldAt_inside ho c) _ _ _ (.inl hp),
      fieldsInto_inside ho cs path _ hp]

end

/-- The fields of a document are the same, with longer paths, where the document is inside a field:
if its own mode takes the names apart as path mode does, and no name begins with a dot. -/
theorem jsonFields_inside (ho : outer ≠ "") {mode : JsonMode} {cs : List ResultColumn}
    (hs : ∀ c ∈ cs, fieldSegments mode c.name = Text.segments c.name)
    (hh : ∀ c ∈ cs, (Text.segments c.name).head? ≠ some "") :
    jsonFields .path outer cs = (jsonFields mode "" cs).map (·.inside outer) := by
  have hall (fields : List JsonField) :
      fieldsInto .path (placed outer "") cs (fields.map (·.inside outer)) =
        (fieldsInto mode "" cs fields).map (·.inside outer) := by
    induction cs generalizing fields with
    | nil => rfl
    | cons c cs ih =>
      obtain ⟨hc, hcs⟩ := List.forall_mem_cons.1 hs
      obtain ⟨hhead, hheads⟩ := List.forall_mem_cons.1 hh
      have hpath : fieldSegments .path c.name = Text.segments c.name := rfl
      rw [fieldsInto, fieldsInto, hpath, hc,
        insertAt_inside ho (fieldAt_inside ho c) _ _ _ (.inr hhead), ih hcs hheads]
  exact hall []

/-- The path of a column's field is the one it is put at. -/
theorem path_fieldAt (c : ResultColumn) (name path : String) :
    (c.fieldAt name path).path = path := by
  match c with
  | ⟨_, _, _, _, _, _, _, _, _, _, some _, _⟩ => rfl
  | ⟨_, _, _, _, _, _, _, _, _, _, none, _⟩ => rfl

end ResultColumn

namespace JsonField

private theorem filter_updateFirst {p q : JsonField → Bool} {f : JsonField → JsonField}
    (hp : ∀ x, p x → q x = false) (hf : ∀ x, p x → q (f x) = false) (fields : List JsonField) :
    (updateFirst p f fields).filter q = fields.filter q := by
  induction fields with
  | nil => rfl
  | cons x xs ih =>
    unfold updateFirst
    split
    · rename_i hx
      rw [List.filter_cons_of_neg (by simp [hf x hx]), List.filter_cons_of_neg (by simp [hp x hx])]
    · rw [List.filter_cons, List.filter_cons, ih]

/-- What is put below a field of a document leaves the other fields of the document alone. -/
theorem filter_insertAt {make : String → String → JsonField}
    (hmake : ∀ name path, (make name path).path = path)
    {wanted : String} {segments : List String} (h : segments.head? ≠ some wanted)
    (fields : List JsonField) :
    (insertAt make segments "" fields).filter (·.path == wanted) =
      fields.filter (·.path == wanted) := by
  match segments, h with
  | [], _ => rfl
  | [name], h =>
    have hne : ((make name name).path == wanted) = false := by
      rw [hmake]
      simpa using h
    rw [insertAt, List.filter_append, pathUnder_empty, List.filter_cons_of_neg (by simp [hne]),
      List.filter_nil, List.append_nil]
  | name :: next :: rest, h =>
    have hne : (name == wanted) = false := by simpa using h
    rw [insertAt_cons (by simp), pathUnder_empty, filter_updateFirst]
    · split
      · rfl
      · rw [List.filter_append, List.filter_cons_of_neg (by simpa [leaf] using hne),
          List.filter_nil, List.append_nil]
    · intro x hx
      rwa [eq_of_beq hx]
    · intro x hx
      rwa [eq_of_beq hx]

end JsonField

namespace ResultColumn

private theorem fieldsInto_append (mode : JsonMode) (outer : String) (cs ds : List ResultColumn)
    (fields : List JsonField) :
    fieldsInto mode outer (cs ++ ds) fields =
      fieldsInto mode outer ds (fieldsInto mode outer cs fields) := by
  induction cs generalizing fields with
  | nil => rfl
  | cons c cs ih => rw [List.cons_append, fieldsInto, fieldsInto, ih]

/-- Columns whose names begin otherwise leave the fields at a path as they are. -/
private theorem filter_fieldsInto {wanted : String} {cs : List ResultColumn}
    (h : ∀ c ∈ cs, (Text.segments c.name).head? ≠ some wanted) (fields : List JsonField) :
    (fieldsInto .path "" cs fields).filter (·.path == wanted) =
      fields.filter (·.path == wanted) := by
  induction cs generalizing fields with
  | nil => rfl
  | cons c cs ih =>
    obtain ⟨hc, hcs⟩ := List.forall_mem_cons.1 h
    rw [fieldsInto, ih hcs]
    exact JsonField.filter_insertAt (path_fieldAt c) hc fields

/-- At a path without dots a document has one field, that of the column with this name, if the name
is the first segment of no other. -/
theorem filter_jsonFields {wanted : String} (hdot : '.' ∉ wanted.toList)
    {cs : List ResultColumn} {i : Nat}
    {c : ResultColumn} (hi : cs[i]? = some c) (hc : c.name = wanted)
    (hothers : ∀ j d, j ≠ i → cs[j]? = some d → (Text.segments d.name).head? ≠ some wanted) :
    (jsonFields .path "" cs).filter (·.path == wanted) = [c.fieldAt wanted wanted] := by
  have hsegments : fieldSegments .path c.name = [wanted] := by
    rw [fieldSegments, Text.segments, hc, Text.split_of_not_mem hdot, List.map_singleton,
      String.ofList_toList]
  have hsplit : cs = cs.take i ++ c :: cs.drop (i + 1) := by
    obtain ⟨hlt, rfl⟩ := List.getElem?_eq_some_iff.1 hi
    rw [List.getElem_cons_drop, List.take_append_drop]
  have hbefore : ∀ d ∈ cs.take i, (Text.segments d.name).head? ≠ some wanted := by
    intro d hd
    obtain ⟨j, hj⟩ := List.mem_iff_getElem?.1 hd
    rw [List.getElem?_take] at hj
    split at hj
    · rename_i hji
      exact hothers j d (Nat.ne_of_lt hji) hj
    · cases hj
  have hafter : ∀ d ∈ cs.drop (i + 1), (Text.segments d.name).head? ≠ some wanted := by
    intro d hd
    obtain ⟨j, hj⟩ := List.mem_iff_getElem?.1 hd
    rw [List.getElem?_drop] at hj
    exact hothers _ d (by omega) hj
  rw [hsplit, jsonFields, fieldsInto_append, fieldsInto, filter_fieldsInto hafter, hsegments,
    JsonField.insertAt, List.filter_append, filter_fieldsInto hbefore]
  simp [path_fieldAt]

end ResultColumn

end ResultShape
