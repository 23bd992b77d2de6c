import Mathlib.Data.List.MinMax
import Mathlib.Data.List.ReduceOption
import ResultShape.Typing.Precedence
/-! Precedence: a list of types combines to a type with the base of the leftmost one of the
highest rank, and what has one of the types of that base fits into it. Widening may change the
rank of the combined type on the way. -/
namespace ResultShape.SqlType

/-- A value of the first length fits into the second one. A negative length has no bound. -/
def LengthWithin : Option Int32 → Option Int32 → Prop
  | none, _ => True
  | some _, none => False
  | some a, some b => b < 0 ∨ 0 ≤ a ∧ a ≤ b

/-- The first facet is not larger than the second one; one that is absent counts least. -/
def FacetWithin : Option UInt8 → Option UInt8 → Prop
  | none, _ => True
  | some _, none => False
  | some a, some b => a ≤ b

/-- A type leaves room for another one of its base: in its length and, where the base has
none, in precision and scale. -/
structure CoveredBy (t m : SqlType) : Prop where
  length : LengthWithin t.maxLength m.maxLength
  precision : m.isLengthBearing = false → FacetWithin t.precision m.precision
  scale : m.isLengthBearing = false → FacetWithin t.scale m.scale

section Facets

private theorem lengthWithin_refl (a : Option Int32) : LengthWithin a a := by
  cases a with
  | none => trivial
  | some a =>
    by_cases h : a < 0
    · exact .inl h
    · exact .inr ⟨Int32.not_lt.1 h, Int32.le_refl a⟩

private theorem lengthWithin_trans {a b c : Option Int32} (h₁ : LengthWithin a b)
    (h₂ : LengthWithin b c) :
    LengthWithin a c := by
  rcases a with _ | a <;> rcases b with _ | b <;> rcases c with _ | c
  case some.some.some =>
    rcases h₂ with hc | ⟨hb, hbc⟩
    · exact .inl hc
    · rcases h₁ with hneg | ⟨ha, hab⟩
      · exact absurd hb (Int32.not_le.2 hneg)
      · exact .inr ⟨ha, Int32.le_trans hab hbc⟩
  all_goals trivial

private theorem lengthWithin_of_isMax {m : SqlType} (h : m.isMax = true) (a : Option Int32) :
    LengthWithin a m.maxLength := by
  cases hm : m.maxLength with
  | none =>
    rw [isMax, hm] at h
    cases h
  | some b =>
    rw [isMax, hm] at h
    cases a with
    | none => trivial
    | some a => exact .inl (of_decide_eq_true h)

private theorem lengthWithin_longer (a b : Option Int32) :
    LengthWithin a (longer a b) ∧ LengthWithin b (longer a b) := by
  rcases a with _ | a <;> rcases b with _ | b
  · exact ⟨trivial, trivial⟩
  · exact ⟨trivial, lengthWithin_refl _⟩
  · exact ⟨lengthWithin_refl _, trivial⟩
  · simp only [longer]
    split
    · rename_i ha
      exact ⟨.inl ha, .inl ha⟩
    · rename_i ha
      split
      · rename_i hb
        exact ⟨.inl hb, .inl hb⟩
      · rename_i hb
        rw [Int32.not_lt] at ha hb
        split
        · rename_i hab
          exact ⟨.inr ⟨ha, Int32.le_of_lt hab⟩, .inr ⟨hb, Int32.le_refl b⟩⟩
        · rename_i hab
          exact ⟨.inr ⟨ha, Int32.le_refl a⟩, .inr ⟨hb, Int32.not_lt.1 hab⟩⟩

private theorem facetWithin_refl (p : Option UInt8) : FacetWithin p p := by
  cases p with
  | none => trivial
  | some p => exact UInt8.le_refl p

private theorem facetWithin_trans {p q r : Option UInt8} (h₁ : FacetWithin p q)
    (h₂ : FacetWithin q r) :
    FacetWithin p r := by
  rcases p with _ | p <;> rcases q with _ | q <;> rcases r with _ | r
  case some.some.some => exact UInt8.le_trans h₁ h₂
  all_goals trivial

private theorem facetWithin_larger (p q : Option UInt8) :
    FacetWithin p (larger p q) ∧ FacetWithin q (larger p q) := by
  rcases p with _ | p <;> rcases q with _ | q
  · exact ⟨trivial, trivial⟩
  · exact ⟨trivial, facetWithin_refl _⟩
  · exact ⟨facetWithin_refl _, trivial⟩
  · simp only [larger]
    split
    · rename_i hpq
      exact ⟨UInt8.le_of_lt hpq, UInt8.le_refl q⟩
    · rename_i hpq
      exact ⟨UInt8.le_refl p, UInt8.not_lt.1 hpq⟩

end Facets

section Ranks

variable {a b : SqlType}

private theorem isLengthBearing_eq (h : a.base = b.base) :
    a.isLengthBearing = b.isLengthBearing := by
  rw [isLengthBearing, h, isLengthBearing]

/-- A base that bears a length ranks below the large objects. -/
private theorem lookup_le_of_isLengthBearing (h : a.isLengthBearing = true) :
    (baseRanks.lookup a.base).getD 0 ≤ 40 := by
  simp only [isLengthBearing, List.contains_iff_mem, List.mem_cons, List.not_mem_nil, or_false] at h
  rcases h with h | h | h | h | h | h <;> rw [h] <;> decide

private theorem isMax_widen (a b : SqlType) : (a.widen b).isMax = (a.isMax || b.isMax) := by
  rcases a with ⟨base, _ | l, p, s⟩ <;> rcases b with ⟨base', _ | l', p', s'⟩
  case some.some =>
    simp only [widen, isMax, longer, Option.any_some]
    split
    · simp_all
    · split
      · simp_all
      · split <;> simp_all
  all_goals simp [widen, isMax, longer]

/-- A type that is widened ranks like the higher one of the two. -/
private theorem rank_widen (h : a.base = b.base) : (a.widen b).rank = max a.rank b.rank := by
  have hbearing : (a.widen b).isLengthBearing = a.isLengthBearing := isLengthBearing_eq rfl
  have hbase : (a.widen b).base = a.base := rfl
  rw [rank, rank, rank, hbearing, isMax_widen, hbase, ← isLengthBearing_eq h, ← h]
  cases hl : a.isLengthBearing with
  | false => simp
  | true =>
    have hle := lookup_le_of_isLengthBearing hl
    cases a.isMax <;> cases b.isMax <;> simp [hle]

/-- Of two types of one base the second one ranks higher only by a length without a bound. -/
private theorem isMax_of_rank_lt (h : a.base = b.base) (hrank : a.rank < b.rank) :
    b.isLengthBearing = true ∧ b.isMax = true := by
  rw [rank, rank, isLengthBearing_eq h, h] at hrank
  cases hl : b.isLengthBearing with
  | false =>
    rw [hl] at hrank
    exact absurd hrank (lt_irrefl _)
  | true =>
    cases hm : b.isMax with
    | true => exact ⟨rfl, rfl⟩
    | false =>
      have hle := lookup_le_of_isLengthBearing hl
      rw [hl, hm] at hrank
      cases ha : a.isMax <;> simp [ha] at hrank
      omega

end Ranks

namespace CoveredBy

variable {t m l : SqlType}

theorem refl (t : SqlType) : t.CoveredBy t :=
  ⟨lengthWithin_refl _, fun _ => facetWithin_refl _, fun _ => facetWithin_refl _⟩

theorem trans (hbase : m.base = l.base) (h₁ : t.CoveredBy m) (h₂ : m.CoveredBy l) :
    t.CoveredBy l := by
  have hbearing := isLengthBearing_eq hbase
  refine ⟨lengthWithin_trans h₁.length h₂.length, fun hl => ?_, fun hl => ?_⟩
  · exact facetWithin_trans (h₁.precision (hbearing.trans hl)) (h₂.precision hl)
  · exact facetWithin_trans (h₁.scale (hbearing.trans hl)) (h₂.scale hl)

theorem widen_left (m t : SqlType) : m.CoveredBy (m.widen t) :=
  ⟨(lengthWithin_longer _ _).1, fun _ => (facetWithin_larger _ _).1, fun _ =>
    (facetWithin_larger _ _).1⟩

theorem widen_right (m t : SqlType) : t.CoveredBy (m.widen t) :=
  ⟨(lengthWithin_longer _ _).2, fun _ => (facetWithin_larger _ _).2, fun _ =>
    (facetWithin_larger _ _).2⟩

/-- A type is covered by one of its base that ranks higher. -/
theorem of_rank_lt (hbase : t.base = m.base) (hrank : t.rank < m.rank) : t.CoveredBy m := by
  obtain ⟨hbearing, hmax⟩ := isMax_of_rank_lt hbase hrank
  refine ⟨lengthWithin_of_isMax hmax _, fun h => ?_, fun h => ?_⟩ <;> cases hbearing.symm.trans h

end CoveredBy

/-- The first type may be the combined type of the others: it has the rank and the base of the
leftmost one of the highest rank, and it covers those of its base. -/
structure Combines (m : SqlType) (types : List SqlType) : Prop where
  leading : (types.argmax rank).map (fun t => (t.rank, t.base)) = some (m.rank, m.base)
  covers : ∀ t ∈ types, t.base = m.base → t.CoveredBy m

namespace Combines

variable {m t : SqlType} {types : List SqlType}

theorem singleton (t : SqlType) : t.Combines [t] := by
  refine ⟨rfl, fun u hu _ => ?_⟩
  rw [List.mem_singleton.1 hu]
  exact .refl t

theorem exists_leading (h : m.Combines types) :
    ∃ t ∈ types.argmax rank, t.rank = m.rank ∧ t.base = m.base := by
  obtain ⟨t, ht, he⟩ := Option.map_eq_some_iff.1 h.leading
  exact ⟨t, ht, Prod.mk.inj he⟩

theorem rank_le (h : m.Combines types) (ht : t ∈ types) : t.rank ≤ m.rank := by
  obtain ⟨u, hu, hrank, -⟩ := h.exists_leading
  rw [← hrank]
  exact List.le_of_mem_argmax ht hu

/-- The leftmost type of the highest rank stays so unless the next one ranks
higher than the combined type. -/
private theorem argmax_concat (h : m.Combines types) (t : SqlType) :
    ((types ++ [t]).argmax rank).map (fun t => (t.rank, t.base)) =
      some (if m.rank < t.rank then (t.rank, t.base) else (m.rank, m.base)) := by
  obtain ⟨u, hu, hrank, hbase⟩ := h.exists_leading
  rw [List.argmax_concat, Option.mem_def.1 hu]
  dsimp only
  rw [hrank]
  split
  · rfl
  · rw [Option.map_some, hrank, hbase]

/-- One more type of the base widens the combined type. -/
theorem widen (h : m.Combines types) (hbase : m.base = t.base) :
    (m.widen t).Combines (types ++ [t]) := by
  refine ⟨?_, fun u hu hb => ?_⟩
  · rw [h.argmax_concat, rank_widen hbase]
    split
    · rename_i hlt
      rw [max_eq_right hlt.le, ← hbase]
      rfl
    · rename_i hle
      rw [max_eq_left (not_lt.1 hle)]
      rfl
  · rcases List.mem_append.1 hu with hu | hu
    · have hsame : m.base = (m.widen t).base := rfl
      exact .trans hsame (h.covers u hu hb) (.widen_left m t)
    · rw [List.mem_singleton.1 hu]
      exact .widen_right m t

/-- One more type of another base takes over where it ranks higher. Types of its base that came
before are of a lower rank, so it has no bound and leaves room for them. -/
theorem dominant (h : m.Combines types) (hbase : m.base ≠ t.base) :
    (m.dominant t).Combines (types ++ [t]) := by
  by_cases hlt : m.rank < t.rank
  · have hwins : m.dominant t = t := if_pos (decide_eq_true hlt)
    rw [hwins]
    refine ⟨?_, fun u hu hb => ?_⟩
    · rw [h.argmax_concat, if_pos hlt]
    · rcases List.mem_append.1 hu with hu | hu
      · exact .of_rank_lt hb ((h.rank_le hu).trans_lt hlt)
      · rw [List.mem_singleton.1 hu]
        exact .refl t
  · have hstays : m.dominant t = m := if_neg fun hyields => hlt (of_decide_eq_true hyields)
    rw [hstays]
    refine ⟨?_, fun u hu hb => ?_⟩
    · rw [h.argmax_concat, if_neg hlt]
    · rcases List.mem_append.1 hu with hu | hu
      · exact h.covers u hu hb
      · rw [List.mem_singleton.1 hu] at hb
        exact absurd hb.symm hbase

/-- One more type is taken into the combined type. -/
theorem merge (h : m.Combines types) (t : SqlType) :
    ∃ m', SqlType.merge (some m) (some t) = some m' ∧ m'.Combines (types ++ [t]) := by
  refine ⟨_, rfl, ?_⟩
  split
  · rename_i hbase
    exact h.widen hbase
  · rename_i hbase
    exact h.dominant hbase

end Combines

/-- An unknown type adds nothing to a list of types. -/
theorem mergeAll_append_none (types : List (Option SqlType)) :
    mergeAll (types ++ [none]) = mergeAll types := by
  rw [mergeAll, List.foldl_append, mergeAll]
  cases types.foldl merge none <;> rfl

private theorem mergeAll_cases (types : List (Option SqlType)) :
    (mergeAll types = none ∧ types.reduceOption = []) ∨ ∃ m, mergeAll types = some m ∧
    m.Combines types.reduceOption := by
  induction types using List.reverseRecOn with
  | nil => exact .inl ⟨rfl, rfl⟩
  | append_singleton types t ih =>
    rw [List.reduceOption_append, List.reduceOption_singleton]
    cases t with
    | none =>
      rw [mergeAll_append_none, Option.toList_none, List.append_nil]
      exact ih
    | some t =>
      have hstep : mergeAll (types ++ [some t]) = merge (mergeAll types) (some t) :=
        List.foldl_append
      rw [hstep, Option.toList_some]
      rcases ih with ⟨hm, hnone⟩ | ⟨m, hm, hcombines⟩
      · rw [hm, hnone]
        exact .inr ⟨t, rfl, .singleton t⟩
      · rw [hm]
        exact .inr (hcombines.merge t)

/-- A list of types combines to none exactly if none of them is known. Else the combined type has
the highest rank among those that are known, its base is that of the leftmost one of this rank, and
it covers all those of its base. -/
theorem mergeAll_combines (types : List (Option SqlType)) :
    (mergeAll types = none ↔ ∀ t ∈ types, t = none) ∧
    ∀ m ∈ mergeAll types, m.Combines types.reduceOption := by
  have hunknown : types.reduceOption = [] ↔ ∀ t ∈ types, t = none := by
    simp only [List.eq_nil_iff_forall_not_mem, List.reduceOption_mem_iff,
      Option.eq_none_iff_forall_ne_some]
    exact ⟨fun h t ht a he => h a (he ▸ ht), fun h a ha => h _ ha a rfl⟩
  rw [← hunknown]
  rcases mergeAll_cases types with ⟨hm, hnone⟩ | ⟨m, hm, hcombines⟩
  · rw [hm, hnone]
    exact ⟨⟨fun _ => rfl, fun _ => rfl⟩, fun m hm => nomatch hm⟩
  · obtain ⟨t, ht, -⟩ := hcombines.exists_leading
    rw [hm]
    constructor
    · constructor
      · intro h
        cases h
      · intro h
        rw [h] at ht
        cases ht
    · intro m' hm'
      cases hm'
      exact hcombines

-- The unbounded type of the first base wins over the second one in the end, and it covers the type
-- it came with first.
example : mergeAll [some (.varchar 10), some (.nvarchar 5), none, some (.varchar unbounded)] =
    some (.varchar unbounded) := by decide

end ResultShape.SqlType
