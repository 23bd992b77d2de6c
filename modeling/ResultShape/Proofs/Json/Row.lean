import ResultShape.Json.Record
/-! Rows read field by field: the cell that a field is read from depends on its key and its place in
the record, and on nothing that was read before. -/
namespace ResultShape

/-- The value of a field of a record: the member with its key, or the item at its place. -/
def Json.field? (key : String) (place : Nat) : Json → Option Json
  | .object members => members.lookup key
  | .array items => items[place]?
  | _ => none

namespace Row

variable {α : Type}

/-- The cell that the next field is read from. -/
def head? (key : String) : Row α → Option α
  | .named cells => cells.lookup key
  | .listed cells => cells.head?

/-- What is left for the fields after it. -/
def tail : Row α → Row α
  | .named cells => .named cells
  | .listed cells => .listed cells.tail

/-- What is left after so many fields. -/
def drop (row : Row α) : Nat → Row α
  | 0 => row
  | n + 1 => row.tail.drop n

/-- An object has no order, so reading a field takes nothing away from it. -/
theorem drop_named (cells : List (String × α)) (n : Nat) :
    (Row.named cells).drop n = .named cells := by
  induction n with
  | zero => rfl
  | succ n ih => exact ih

theorem drop_listed (cells : List α) (n : Nat) :
    (Row.listed cells).drop n = .listed (cells.drop n) := by
  induction n generalizing cells with
  | zero => rfl
  | succ n ih => exact (ih cells.tail).trans (congrArg Row.listed List.drop_tail)

/-- The row that a document is read from, if it is one that records are read from. -/
def ofJson? : Json → Option (Row Json)
  | .object members => some (.named members)
  | .array items => some (.listed items)
  | _ => none

theorem head?_drop {j : Json} {row : Row Json} (h : ofJson? j = some row) (key : String) (n : Nat) :
    (row.drop n).head? key = j.field? key n := by
  cases j with
  | object members =>
    obtain rfl := Option.some.inj h
    rw [drop_named]
    rfl
  | array items =>
    obtain rfl := Option.some.inj h
    rw [drop_listed]
    exact List.head?_drop
  | _ => cases h

end Row

namespace FieldReader

variable {α β γ : Type}

theorem cell_eq (key : String) (row : Row α) : cell key row = some (row.head? key, row.tail) := by
  rcases row with cells | ⟨_ | ⟨c, cells⟩⟩ <;> rfl

/-- A field is read from its own cell. -/
theorem withDefault_eq (key : String) (default : β) (read : α → Option β) (row : Row α) :
    withDefault key default read row =
      ((row.head? key).elim (some default) read).map (·, row.tail) := by
  change (cell key row >>= _) = _
  rw [cell_eq]
  cases row.head? key with
  | none => rfl
  | some c => exact Option.map_eq_bind.symm

theorem required_eq (key : String) (read : α → Option β) (row : Row α) :
    required key read row = ((row.head? key).bind read).map (·, row.tail) := by
  change (cell key row >>= _) = _
  rw [cell_eq]
  cases row.head? key with
  | none => rfl
  | some c => exact Option.map_eq_bind.symm

theorem bind_of_eq {x : FieldReader α β} {row between : Row α} {b : β}
    (h : x row = some (b, between)) (f : β → FieldReader α γ) : (x >>= f) row = f b between := by
  change (x row >>= fun p => f p.1 p.2) = _
  rw [h]
  rfl

/-- A record that reads goes on after a field that it can do without, -/
theorem of_withDefault {key : String} {default : β} {read : α → Option β}
    {f : β → FieldReader α γ} {row : Row α}
    {r : γ × Row α} (h : (withDefault key default read >>= f) row = some r) :
    ∃ b, f b row.tail = some r := by
  obtain ⟨⟨b, rest⟩, hx, hf⟩ := Option.bind_eq_some_iff.1 h
  rw [withDefault_eq] at hx
  obtain ⟨_, -, he⟩ := Option.map_eq_some_iff.1 hx
  cases he
  exact ⟨b, hf⟩

/-- and has read every field that it insists on. -/
theorem of_required {key : String} {read : α → Option β} {f : β → FieldReader α γ} {row : Row α}
    {r : γ × Row α}
    (h : (required key read >>= f) row = some r) : ∃ b, (row.head? key).bind read = some b ∧
    f b row.tail = some r := by
  obtain ⟨⟨b, rest⟩, hx, hf⟩ := Option.bind_eq_some_iff.1 h
  rw [required_eq] at hx
  obtain ⟨_, hb, he⟩ := Option.map_eq_some_iff.1 hx
  cases he
  exact ⟨b, hb, hf⟩

end FieldReader

namespace Json

theorem record?_eq {β : Type} (reader : FieldReader Json β) (j : Json) :
    j.record? reader = (Row.ofJson? j).bind reader.run? := by cases j <;> rfl

theorem exists_of_record? {β : Type} {reader : FieldReader Json β} {j : Json} {b : β}
    (h : j.record? reader = some b) :
    ∃ row rest, Row.ofJson? j = some row ∧ reader row = some (b, rest) := by
  rw [record?_eq] at h
  obtain ⟨row, hrow, hrun⟩ := Option.bind_eq_some_iff.1 h
  unfold FieldReader.run? at hrun
  split at hrun
  · cases hrun
    exact ⟨row, _, hrow, ‹_›⟩
  · cases hrun
    exact ⟨row, _, hrow, ‹_›⟩
  · cases hrun

/-- A list reads only if all its items do. -/
theorem exists_of_list? {α : Type} {read : Json → Option α} {items : List Json} {as : List α}
    (h : list? read (.array items) = some as) {j : Json} (hj : j ∈ items) :
    ∃ a, read j = some a := by
  change items.mapM read = some as at h
  induction items generalizing as with
  | nil => cases hj
  | cons i items ih =>
    rw [List.mapM_cons] at h
    obtain ⟨a, ha, h⟩ := Option.bind_eq_some_iff.1 h
    obtain ⟨rest, hrest, -⟩ := Option.bind_eq_some_iff.1 h
    rcases List.mem_cons.1 hj with rfl | hj
    · exact ⟨a, ha⟩
    · exact ih hj hrest

end Json

end ResultShape
