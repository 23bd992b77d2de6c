/-! Keyed lists: one value per key, in the order in which the keys first came. -/
namespace ResultShape

universe u v

/-- Values under distinct keys, in order of first insertion. -/
structure Keyed (κ : Type u) (α : Type v) where
  toList : List (κ × α)
  nodup_keys : (toList.map Prod.fst).Nodup

namespace Keyed

variable {κ : Type u} {α : Type v} [DecidableEq κ]

/-- No key at all. -/
def empty : Keyed κ α := ⟨[], List.nodup_nil⟩

instance : Inhabited (Keyed κ α) := ⟨empty⟩

def keys (m : Keyed κ α) : List κ := m.toList.map Prod.fst

def values (m : Keyed κ α) : List α := m.toList.map Prod.snd

private def find (k : κ) : List (κ × α) → Option α
  | [] => none
  | p :: ps => if p.1 = k then some p.2 else find k ps

private def put (k : κ) (a : α) : List (κ × α) → List (κ × α)
  | [] => [(k, a)]
  | p :: ps => if p.1 = k then (k, a) :: ps else p :: put k a ps

private theorem keys_put (k : κ) (a : α) (ps : List (κ × α)) :
    (put k a ps).map Prod.fst =
      if k ∈ ps.map Prod.fst then ps.map Prod.fst else ps.map Prod.fst ++ [k] := by
  induction ps with
  | nil => simp [put]
  | cons p ps ih =>
    by_cases h : p.1 = k
    · simp [put, h]
    · simp only [put, h, if_false, List.map_cons, ih, List.mem_cons, Ne.symm h, false_or]
      split <;> simp

private theorem put_of_not_mem {k : κ} {a : α} {ps : List (κ × α)} (h : k ∉ ps.map Prod.fst) :
    put k a ps = ps ++ [(k, a)] := by
  induction ps with
  | nil => rfl
  | cons p ps ih =>
    rw [List.map_cons, List.mem_cons, not_or] at h
    rw [put, if_neg (Ne.symm h.1), ih h.2, List.cons_append]

private theorem find_put (k j : κ) (a : α) (ps : List (κ × α)) :
    find j (put k a ps) = if k = j then some a else find j ps := by
  induction ps with
  | nil => rfl
  | cons p ps ih => grind [find, put]

private theorem find_eq_none_iff {k : κ} {ps : List (κ × α)} :
    find k ps = none ↔ k ∉ ps.map Prod.fst := by
  induction ps with
  | nil => simp [find]
  | cons p ps ih => grind [find]

private theorem nodup_put {k : κ} {a : α} {ps : List (κ × α)} (h : (ps.map Prod.fst).Nodup) :
    ((put k a ps).map Prod.fst).Nodup := by
  rw [keys_put]
  split
  · exact h
  · rename_i hk
    exact List.nodup_append.2 ⟨h, by simp, by simpa using fun x hx => ne_of_mem_of_not_mem hx hk⟩

private theorem filter_put (k : κ) (a : α) (ps : List (κ × α)) :
    (put k a ps).filter (·.1 ≠ k) = ps.filter (·.1 ≠ k) := by
  induction ps with
  | nil => simp [put]
  | cons p ps ih =>
    by_cases h : p.1 = k
    · simp [put, h]
    · simp only [put, h, if_false, List.filter_cons, ih]

private theorem find_of_mem {p : κ × α} {ps : List (κ × α)} (h : (ps.map Prod.fst).Nodup)
    (hp : p ∈ ps) :
    find p.1 ps = some p.2 := by
  induction ps with
  | nil => cases hp
  | cons q ps ih =>
    obtain ⟨hq, h⟩ := List.nodup_cons.1 h
    rcases List.mem_cons.1 hp with rfl | hp
    · simp [find]
    · have hne : q.1 ≠ p.1 := fun he => hq (he ▸ List.mem_map_of_mem hp)
      simp only [find, hne, if_false]
      exact ih h hp

private theorem mem_of_find {k : κ} {a : α} {ps : List (κ × α)} (h : find k ps = some a) :
    (k, a) ∈ ps := by
  induction ps with
  | nil => cases h
  | cons q ps ih => grind [find]

private theorem mem_put {k : κ} {a : α} {p : κ × α} {ps : List (κ × α)} (h : p ∈ put k a ps) :
    p = (k, a) ∨ p ∈ ps := by
  induction ps with
  | nil => exact .inl (List.mem_singleton.1 h)
  | cons q ps ih => grind [put]

/-- The value under a key. -/
def get? (m : Keyed κ α) (k : κ) : Option α := find k m.toList

def contains (m : Keyed κ α) (k : κ) : Bool := (m.get? k).isSome

/-- Puts a value under a key: a known key keeps its place and takes the new
value, a new one comes last. -/
def insert (m : Keyed κ α) (k : κ) (a : α) : Keyed κ α := ⟨put k a m.toList, nodup_put m.nodup_keys⟩

/-- Puts a value under a key that has none yet; a known key keeps its value. -/
def insertNew (m : Keyed κ α) (k : κ) (a : α) : Keyed κ α :=
  if m.contains k then m else m.insert k a

/-- Takes a key out. -/
def erase (m : Keyed κ α) (k : κ) : Keyed κ α :=
  ⟨m.toList.filter (·.1 ≠ k), m.nodup_keys.sublist (List.filter_sublist.map _)⟩

/-- Inserts the pairs in turn. -/
def insertAll (m : Keyed κ α) (ps : List (κ × α)) : Keyed κ α :=
  ps.foldl (fun m p => m.insert p.1 p.2) m

/-- A repeated key keeps its first place and takes its last value. -/
def ofList (ps : List (κ × α)) : Keyed κ α := insertAll empty ps

theorem get?_empty (k : κ) : (empty : Keyed κ α).get? k = none := rfl

theorem get?_insert (m : Keyed κ α) (k j : κ) (a : α) :
    (m.insert k a).get? j = if k = j then some a else m.get? j := find_put k j a m.toList

theorem get?_of_mem {m : Keyed κ α} {p : κ × α} (h : p ∈ m.toList) : m.get? p.1 = some p.2 :=
  find_of_mem m.nodup_keys h

theorem mem_of_get? {m : Keyed κ α} {k : κ} {a : α} (h : m.get? k = some a) :
    (k, a) ∈ m.toList := mem_of_find h

theorem get?_eq_none_iff {m : Keyed κ α} {k : κ} : m.get? k = none ↔ k ∉ m.keys := find_eq_none_iff

theorem contains_iff {m : Keyed κ α} {k : κ} : m.contains k = true ↔ k ∈ m.keys := by
  rw [contains, Option.isSome_iff_ne_none, ne_eq, get?_eq_none_iff, Decidable.not_not]

theorem keys_insert (m : Keyed κ α) (k : κ) (a : α) :
    (m.insert k a).keys = if k ∈ m.keys then m.keys else m.keys ++ [k] := keys_put k a m.toList

theorem get?_insertNew (m : Keyed κ α) (k j : κ) (a : α) :
    (m.insertNew k a).get? j = if k = j then some ((m.get? k).getD a) else m.get? j := by
  unfold insertNew contains
  split
  · rename_i h
    obtain ⟨b, hb⟩ := Option.isSome_iff_exists.1 h
    split <;> simp_all
  · rename_i h
    rw [get?_insert]
    split
    · simp_all
    · rfl

theorem keys_insertNew (m : Keyed κ α) (k : κ) (a : α) :
    (m.insertNew k a).keys = if k ∈ m.keys then m.keys else m.keys ++ [k] := by
  by_cases h : k ∈ m.keys
  · simp [insertNew, contains_iff.2 h, h]
  · have : ¬m.contains k = true := fun hc => h (contains_iff.1 hc)
    simp [insertNew, this, keys_insert, h]

/-- A new key comes last. -/
theorem toList_insertNew {m : Keyed κ α} {k : κ} (h : k ∉ m.keys) (a : α) :
    (m.insertNew k a).toList = m.toList ++ [(k, a)] := by
  rw [insertNew, if_neg fun hc => h (contains_iff.1 hc)]
  exact put_of_not_mem h

theorem mem_insert {m : Keyed κ α} {k : κ} {a : α} {p : κ × α} (h : p ∈ (m.insert k a).toList) :
    p = (k, a) ∨ p ∈ m.toList := mem_put h

theorem mem_insertNew {m : Keyed κ α} {k : κ} {a : α} {p : κ × α}
    (h : p ∈ (m.insertNew k a).toList) :
    p = (k, a) ∨ p ∈ m.toList := by
  unfold insertNew at h
  split at h
  · exact .inr h
  · exact mem_insert h

theorem keys_erase (m : Keyed κ α) (k : κ) : (m.erase k).keys = m.keys.filter (· ≠ k) := by
  simp [keys, erase, List.filter_map, Function.comp_def]

theorem get?_erase (m : Keyed κ α) (k j : κ) :
    (m.erase k).get? j = if k = j then none else m.get? j := by
  split
  · rename_i h
    rw [get?_eq_none_iff, keys_erase]
    simp [h]
  · rename_i h
    cases hj : m.get? j with
    | none =>
      rw [get?_eq_none_iff, keys_erase]
      simp [get?_eq_none_iff.1 hj]
    | some a =>
      have hm : (j, a) ∈ m.toList.filter (·.1 ≠ k) :=
        List.mem_filter.2 ⟨mem_of_find hj, by simp [Ne.symm h]⟩
      exact get?_of_mem (m := m.erase k) hm

theorem get?_of_erase {m : Keyed κ α} {k j : κ} {a : α} (h : (m.erase k).get? j = some a) :
    m.get? j = some a := by
  rw [get?_erase] at h
  split at h
  · cases h
  · exact h

theorem erase_insert (m : Keyed κ α) (k : κ) (a : α) : (m.insert k a).erase k = m.erase k := by
  simp only [erase, mk.injEq]
  exact filter_put k a m.toList

theorem erase_eq_self {m : Keyed κ α} {k : κ} (h : k ∉ m.keys) : m.erase k = m := by
  have hf : m.toList.filter (·.1 ≠ k) = m.toList := by
    refine List.filter_eq_self.2 fun p hp => decide_eq_true fun he => h ?_
    exact he ▸ List.mem_map_of_mem hp
  cases m
  simp only [erase, mk.injEq]
  exact hf

end Keyed

end ResultShape
