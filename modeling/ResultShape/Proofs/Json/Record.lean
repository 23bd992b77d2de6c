import ResultShape.Json.Record
/-! Records written and read back: a reader that asks an object for its fields finds what
the object was written with. -/
namespace ResultShape

namespace Json

/-- The members of an object that is written with these fields, without those that are absent. -/
def members (fields : List (String × Option Json)) : List (String × Json) :=
  fields.filterMap fun f => f.2.map (f.1, ·)

theorem members_cons_some (name : String) (j : Json) (fields : List (String × Option Json)) :
    members ((name, some j) :: fields) = (name, j) :: members fields := rfl

theorem members_cons_none (name : String) (fields : List (String × Option Json)) :
    members ((name, none) :: fields) = members fields := rfl

/-- No member is taken for that of another field. -/
theorem lookup_members {fields : List (String × Option Json)} (h : (fields.map (·.1)).Nodup)
    (key : String) : (members fields).lookup key = (fields.lookup key).join := by
  induction fields with
  | nil => rfl
  | cons f fields ih =>
    obtain ⟨name, value⟩ := f
    obtain ⟨hname, hnodup⟩ := List.nodup_cons.1 h
    by_cases hk : key = name
    · subst hk
      cases value with
      | some j =>
        rw [members_cons_some, List.lookup_cons_self, List.lookup_cons_self, Option.join_some]
      | none =>
        -- an absent field leaves nothing behind that could be found under its name
        have hmissing : fields.lookup key = none := by
          refine List.lookup_eq_none_iff.2 fun p hp => bne_iff_ne.2 fun he => hname ?_
          exact List.mem_map.2 ⟨p, hp, he.symm⟩
        rw [members_cons_none, ih hnodup, hmissing, List.lookup_cons_self]
        rfl
    · have hb : (key == name) = false := beq_eq_false_iff_ne.2 hk
      cases value with
      | none => simp only [members_cons_none, List.lookup_cons, hb, ih hnodup]
      | some j => simp only [members_cons_some, List.lookup_cons, hb, ih hnodup]

/-- A value that is not null is read as it is where null is allowed. -/
theorem nullable_eq_some {α : Type} {read : Json → Option α} {j : Json} {a : α}
    (hnull : read .null = none) (h : read j = some a) : nullable read j = some (some a) := by
  cases j with
  | null => exact absurd (hnull.symm.trans h) nofun
  | _ => exact congrArg (Option.map some) h

theorem list?_map {α : Type} {read : Json → Option α} {write : α → Json}
    (h : ∀ a, read (write a) = some a)
    (as : List α) : list? read (.array (as.map write)) = some as := by
  change (as.map write).mapM read = some as
  induction as with
  | nil => rfl
  | cons a as ih => simp [h, ih]

theorem lookup_memberCells {ρ : Type} (reader : FieldReader (Cell ρ) ρ)
    (members : List (String × Json)) (key : String) :
    (memberCells reader members).lookup key = (members.lookup key).map fun j =>
      ⟨j, trees? reader j⟩ := by
  induction members with
  | nil => rfl
  | cons m members ih =>
    rw [memberCells, List.lookup_cons, List.lookup_cons, ih]
    cases key == m.1 <;> rfl

end Json

namespace FieldReader

variable {α β γ : Type} {cells : List (String × α)}

/-- The cells are those of an object that is written with these fields. -/
def Written (cell : Json → α) (fields : List (String × Option Json))
    (cells : List (String × α)) : Prop :=
  ∀ key, cells.lookup key = (fields.lookup key).join.map cell

/-- From these cells the reader reads this value. -/
def Reads (cells : List (String × α)) (reader : FieldReader α β) (b : β) : Prop :=
  reader (.named cells) = some (b, .named cells)

namespace Reads

/-- A value that is read from a cell and not from the row leaves the row as it is. -/
private theorem lift {x : Option β} {b : β} (h : x = some b) : Reads cells (liftM x) b := by
  subst h
  rfl

theorem run? {reader : FieldReader α β} {b : β} (h : Reads cells reader b) :
    reader.run? (.named cells) = some b := by
  rw [FieldReader.run?, h]

theorem pure (b : β) : Reads cells (Pure.pure b) b := rfl

theorem bind {x : FieldReader α β} {f : β → FieldReader α γ} {b : β} {c : γ} (hx : Reads cells x b)
    (hf : Reads cells (f b) c) : Reads cells (x >>= f) c := by
  change (x (.named cells) >>= fun p => f p.1 p.2) = _
  rw [hx]
  exact hf

variable {cell : Json → α} {fields : List (String × Option Json)} {key : String} {j : Json} {b : β}

private theorem withDefault_of_lookup {default : β} {read : α → Option β} {c : Option α}
    (hc : cells.lookup key = c)
    (h : c.elim (some default) read = some b) : Reads cells (withDefault key default read) b := by
  have hcell : Reads cells (FieldReader.cell key) c :=
    congrArg (fun c => some (c, Row.named cells)) hc
  refine hcell.bind ?_
  cases c with
  | none => exact Option.some.inj h ▸ pure default
  | some c => exact lift h

/-- A field that is always written is found by a reader that insists on it, -/
theorem required {read : α → Option β} (h : Written cell fields cells)
    (hf : fields.lookup key = some (some j))
    (hr : read (cell j) = some b) : Reads cells (FieldReader.required key read) b := by
  have hc : cells.lookup key = some (cell j) := by rw [h, hf]; rfl
  have hcell : Reads cells (FieldReader.cell key) (some (cell j)) :=
    congrArg (fun c => some (c, Row.named cells)) hc
  exact hcell.bind (lift hr)

/-- and by one that could do without it. -/
theorem withDefault {default : β} {read : α → Option β} (h : Written cell fields cells)
    (hf : fields.lookup key = some (some j)) (hr : read (cell j) = some b) :
    Reads cells (FieldReader.withDefault key default read) b :=
  withDefault_of_lookup (h key) (by rw [hf]; exact hr)

/-- A field that is left out takes the value that the reader has for it. -/
theorem withDefault_of_absent {default : β} {read : α → Option β} (h : Written cell fields cells)
    (hf : fields.lookup key = some none) :
    Reads cells (FieldReader.withDefault key default read) default :=
  withDefault_of_lookup (h key) (by rw [hf]; rfl)

/-- A field that is left out when its value is absent. -/
theorem optional {read : α → Option (Option β)} {write : β → Json} {o : Option β}
    (h : Written cell fields cells)
    (hf : fields.lookup key = some (o.map write))
    (hr : ∀ b, read (cell (write b)) = some (some b)) :
    Reads cells (FieldReader.optional key read) o := by
  refine withDefault_of_lookup (h key) ?_
  rw [hf]
  cases o with
  | none => rfl
  | some b => exact hr b

end Reads

end FieldReader

namespace Json

open FieldReader

variable {β : Type} {fields : List (String × Option Json)}

/-- A record is read back from the object that it is written as if its fields are. -/
theorem record?_ofFields {reader : FieldReader Json β} {b : β} (hk : (fields.map (·.1)).Nodup)
    (h : ∀ cells, Written id fields cells → Reads cells reader b) :
    (ofFields fields).record? reader = some b := by
  refine (h (members fields) fun key => ?_).run?
  rw [lookup_members hk, Option.map_id_fun, id]

/-- The same for a record that may hold records of its own kind. -/
theorem tree?_ofFields {reader : FieldReader (Cell β) β} {b : β} (hk : (fields.map (·.1)).Nodup)
    (h : ∀ cells, Written (fun j => ⟨j, trees? reader j⟩) fields cells → Reads cells reader b) :
    (ofFields fields).tree? reader = some b := by
  rw [ofFields, tree?]
  refine (h (memberCells reader (members fields)) fun key => ?_).run?
  rw [lookup_memberCells, lookup_members hk]

end Json

end ResultShape
