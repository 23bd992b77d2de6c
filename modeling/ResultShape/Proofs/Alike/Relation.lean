import Mathlib.Data.List.Forall2
import ResultShape.Keyed
/-! Relations between optional values, between lists and between keyed lists that
differ only in their values. -/
namespace ResultShape

section

variable {α β γ δ : Type} {R : α → β → Prop} {S : γ → δ → Prop} {o : Option α} {o' : Option β}

theorem rel_refl {R : α → α → Prop} (h : ∀ a, R a a) (o : Option α) : Option.Rel R o o := by
  cases o with
  | none => exact .none
  | some a => exact .some (h a)

theorem rel_map {f : α → γ} {g : β → δ} (h : Option.Rel R o o')
    (hfg : ∀ a b, R a b → S (f a) (g b)) :
    Option.Rel S (o.map f) (o'.map g) := by
  cases h with
  | none => exact .none
  | some h => exact .some (hfg _ _ h)

theorem rel_bind {f : α → Option γ} {g : β → Option δ} (h : Option.Rel R o o')
    (hfg : ∀ a b, R a b → Option.Rel S (f a) (g b)) : Option.Rel S (o.bind f) (o'.bind g) := by
  cases h with
  | none => exact .none
  | some h => exact hfg _ _ h

theorem rel_or {p : Option α} {p' : Option β} (h : Option.Rel R o o') (hp : Option.Rel R p p') :
    Option.Rel R (o.or p) (o'.or p') := by
  cases h with
  | none => exact hp
  | some h => exact .some h

theorem rel_getD {a : α} {b : β} (h : Option.Rel R o o') (hab : R a b) :
    R (o.getD a) (o'.getD b) := by
  cases h with
  | none => exact hab
  | some h => exact h

theorem isSome_eq (h : Option.Rel R o o') : o.isSome = o'.isSome := by cases h <;> rfl

theorem isNone_eq (h : Option.Rel R o o') : o.isNone = o'.isNone := by cases h <;> rfl

theorem rel_of_map (f : α → β) (h : ∀ a, R a (f a)) (o : Option α) : Option.Rel R o (o.map f) := by
  cases o with
  | none => exact .none
  | some a => exact .some (h a)

theorem forall₂_map_of_mem {f : α → β} {as : List α} (h : ∀ a ∈ as, R a (f a)) :
    List.Forall₂ R as (as.map f) :=
  List.forall₂_map_right_iff.2 (List.forall₂_same.2 h)

theorem forall₂_of_map (f : α → β) (h : ∀ a, R a (f a)) (as : List α) :
    List.Forall₂ R as (as.map f) :=
  forall₂_map_of_mem fun a _ => h a

theorem forall₂_map_map {f : γ → α} {g : γ → β} {cs : List γ} (h : ∀ c ∈ cs, R (f c) (g c)) :
    List.Forall₂ R (cs.map f) (cs.map g) :=
  List.forall₂_map_left_iff.2 (forall₂_map_of_mem h)

theorem forall₂_toList (h : Option.Rel R o o') : List.Forall₂ R o.toList o'.toList := by
  cases h with
  | none => exact .nil
  | some h => exact .cons h .nil

theorem rel_head? {as : List α} {bs : List β} (h : List.Forall₂ R as bs) :
    Option.Rel R as.head? bs.head? := by
  cases h with
  | nil => exact .none
  | cons h _ => exact .some h

theorem rel_getElem? {as : List α} {bs : List β} (h : List.Forall₂ R as bs) (i : Nat) :
    Option.Rel R as[i]? bs[i]? := by
  rw [← List.head?_drop, ← List.head?_drop]
  exact rel_head? (List.forall₂_drop i h)

theorem map_eq_map {as : List α} {bs : List β} {f : α → γ} {g : β → γ} (h : List.Forall₂ R as bs)
    (hfg : ∀ a b, R a b → f a = g b) : as.map f = bs.map g := by
  induction h with
  | nil => rfl
  | cons hab _ ih => rw [List.map_cons, List.map_cons, hfg _ _ hab, ih]

theorem any_eq {as : List α} {bs : List β} {p : α → Bool} {q : β → Bool} (h : List.Forall₂ R as bs)
    (hpq : ∀ a b, R a b → p a = q b) : as.any p = bs.any q := by
  simpa only [List.any_map, Function.comp_def, id] using congrArg (·.any id) (map_eq_map h hpq)

theorem all_eq {as : List α} {bs : List β} {p : α → Bool} {q : β → Bool} (h : List.Forall₂ R as bs)
    (hpq : ∀ a b, R a b → p a = q b) : as.all p = bs.all q := by
  simpa only [List.all_map, Function.comp_def, id] using congrArg (·.all id) (map_eq_map h hpq)

theorem exists_of_mem {as : List α} {bs : List β} {a : α} (h : List.Forall₂ R as bs) (ha : a ∈ as) :
    ∃ b ∈ bs, R a b := by
  induction h with
  | nil => cases ha
  | @cons a' b _ _ hab _ ih =>
    rcases List.mem_cons.1 ha with rfl | ha
    · exact ⟨b, List.mem_cons_self, hab⟩
    · obtain ⟨b', hb', hab'⟩ := ih ha
      exact ⟨b', List.mem_cons_of_mem _ hb', hab'⟩

theorem isEmpty_eq {as : List α} {bs : List β} (h : List.Forall₂ R as bs) :
    as.isEmpty = bs.isEmpty := by cases h <;> rfl

theorem rel_findSome? {f : α → Option γ} {g : β → Option δ} {as : List α} {bs : List β}
    (hs : List.Forall₂ R as bs)
    (hfg : ∀ a b, R a b → Option.Rel S (f a) (g b)) : Option.Rel S (as.findSome? f)
    (bs.findSome? g) := by
  induction hs with
  | nil => exact .none
  | @cons a b _ _ hab _ ih =>
    have hf := hfg a b hab
    rw [List.findSome?_cons, List.findSome?_cons]
    generalize f a = x at hf
    generalize g b = y at hf
    cases hf with
    | none => exact ih
    | some hf => exact .some hf

theorem rel_find? {p : α → Bool} {q : β → Bool} {as : List α} {bs : List β}
    (hs : List.Forall₂ R as bs)
    (hpq : ∀ a b, R a b → p a = q b) : Option.Rel R (as.find? p) (bs.find? q) := by
  induction hs with
  | nil => exact .none
  | @cons a b _ _ hab _ ih =>
    rw [List.find?_cons, List.find?_cons, hpq a b hab]
    cases q b with
    | true => exact .some hab
    | false => exact ih

end

universe u v w

variable {κ : Type u} {α : Type v} {β : Type w} [DecidableEq κ]

/-- The same keys in the same order, with related values. -/
structure Keyed.Alike (S : α → β → Prop) (m : Keyed κ α) (m' : Keyed κ β) : Prop where
  keys : m.keys = m'.keys
  get? : ∀ k, Option.Rel S (m.get? k) (m'.get? k)

namespace Keyed

theorem values_eq_filterMap (m : Keyed κ α) : m.values = m.keys.filterMap m.get? := by
  rw [values, keys, List.filterMap_map, ← List.filterMap_eq_map]
  exact List.filterMap_congr fun p hp => (get?_of_mem hp).symm

namespace Alike

variable {S : α → β → Prop} {m : Keyed κ α} {m' : Keyed κ β} {a : α} {b : β}

theorem empty : Alike S (Keyed.empty : Keyed κ α) (Keyed.empty : Keyed κ β) := ⟨rfl, fun _ => .none⟩

theorem insert (h : Alike S m m') (k : κ) (hab : S a b) :
    Alike S (m.insert k a) (m'.insert k b) := by
  refine ⟨by rw [keys_insert, keys_insert, h.keys], fun j => ?_⟩
  rw [get?_insert, get?_insert]
  split
  · exact .some hab
  · exact h.get? j

theorem contains_eq (h : Alike S m m') (k : κ) : m.contains k = m'.contains k := by
  rw [Bool.eq_iff_iff, contains_iff, contains_iff, h.keys]

theorem insertNew (h : Alike S m m') (k : κ) (hab : S a b) :
    Alike S (m.insertNew k a) (m'.insertNew k b) := by
  rw [Keyed.insertNew, Keyed.insertNew, h.contains_eq]
  split
  · exact h
  · exact h.insert k hab

theorem erase (h : Alike S m m') (k : κ) : Alike S (m.erase k) (m'.erase k) := by
  refine ⟨by rw [keys_erase, keys_erase, h.keys], fun j => ?_⟩
  rw [get?_erase, get?_erase]
  split
  · exact .none
  · exact h.get? j

theorem ofList {ps : List (κ × α)} {ps' : List (κ × β)}
    (hps : List.Forall₂ (fun p p' => p.1 = p'.1 ∧ S p.2 p'.2) ps ps') :
    Alike S (ofList ps) (ofList ps') := by
  have hall (m : Keyed κ α) (m' : Keyed κ β) (h : Alike S m m') :
      Alike S (m.insertAll ps) (m'.insertAll ps') := by
    induction hps generalizing m m' with
    | nil => exact h
    | @cons p p' _ _ hp _ ih =>
      obtain ⟨k, a⟩ := p
      obtain ⟨k', b⟩ := p'
      obtain ⟨rfl, hab⟩ := hp
      exact ih _ _ (h.insert k hab)
  exact hall _ _ empty

theorem values (h : Alike S m m') : List.Forall₂ S m.values m'.values := by
  rw [values_eq_filterMap, values_eq_filterMap, h.keys]
  refine List.rel_filterMap (R := Eq) ?_ (List.forall₂_same.2 fun _ _ => rfl)
  rintro k _ rfl
  exact h.get? k

end Alike

end Keyed

end ResultShape
