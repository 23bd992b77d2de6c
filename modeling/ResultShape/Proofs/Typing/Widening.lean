import Mathlib.Algebra.Order.Field.Rat
import Mathlib.Algebra.Order.Ring.Abs
import Mathlib.Tactic.FieldSimp
import Mathlib.Tactic.GCongr
import Mathlib.Tactic.NormNum
import Mathlib.Tactic.Positivity
import ResultShape.Proofs.Typing.Precedence
/-! Widening: two types of one base combine to one with each facet as large as that of
either. What the combined type holds of their values is all of them, unless one of two
decimals has more digits before the point and the other one more behind it: the larger
precision does not make room for both. -/
namespace ResultShape.SqlType

/-- A value, as far as the facets of a type set bounds to it. -/
inductive Value where
  /-- Text or bytes of a length, in the unit that the type counts. -/
  | sized (length : ℕ)
  | number (x : ℚ)
  /-- A time, by its seconds. -/
  | time (seconds : ℚ)
  /-- A value of a base without facets. -/
  | plain

/-- A number with no more digits behind the point than the scale says, and no more in
all than the precision says. -/
def FitsDecimal (precision scale : ℕ) (x : ℚ) : Prop :=
  ∃ n : ℤ, x * 10 ^ scale = n ∧ |n| < 10 ^ precision

/-- Precision and scale, where both are known. -/
def digits? (t : SqlType) : Option (ℕ × ℕ) := do return ((← t.precision).toNat, (← t.scale).toNat)

/-- A type is known to hold a value: the facets that its base has are there, and leave room for it.
Of a type that lacks one of them nothing is known, and nothing is asked for it in
`merge_of_same_base`; `merge_bare` says what it merges to. -/
def Holds (t : SqlType) : Value → Prop
  | .sized n => t.isLengthBearing = true ∧ ∃ l, t.maxLength = some l ∧ (l < 0 ∨ (n : ℤ) ≤ l.toInt)
  | .number x => t.isExactDecimal = true ∧ ∃ p s, t.digits? = some (p, s) ∧ FitsDecimal p s x
  | .time x => t.hasTimeScale = true ∧ ∃ s, t.scale = some s ∧ ∃ n : ℤ, x * 10 ^ s.toNat = n
  | .plain => (t.isLengthBearing || t.isExactDecimal || t.hasTimeScale) = false

/-- The digits that a facet stands for. -/
def count (facet : Option UInt8) : ℕ := facet.elim 0 UInt8.toNat

/-- Of two decimals the first one has more digits before the point, and the
second one more behind it. -/
def TradesDigits (a b : SqlType) : Prop :=
  a.isExactDecimal = true ∧ ∃ p s, a.digits? = some (p, s) ∧ 0 < p ∧ s < count b.scale ∧
    count b.precision + s < p + count b.scale

section Decimals

variable {p s p' s' : ℕ}

/-- A decimal fits where there are as many digits before the point and as many behind it. -/
private theorem FitsDecimal.mono {x : ℚ} (h : FitsDecimal p s x) (hs : s ≤ s')
    (hp : p + s' ≤ p' + s) :
    FitsDecimal p' s' x := by
  obtain ⟨n, hn, hlt⟩ := h
  have hsplit : s + (s' - s) = s' := by omega
  refine ⟨n * 10 ^ (s' - s), ?_, ?_⟩
  · rw [Int.cast_mul, ← hn, Int.cast_pow, Int.cast_ofNat, mul_assoc, ← pow_add, hsplit]
  · calc |n * 10 ^ (s' - s)|
      _ = |n| * 10 ^ (s' - s) := by
        rw [abs_mul, abs_pow, abs_of_pos (by norm_num : (0 : ℤ) < 10)]
      _ < 10 ^ p * 10 ^ (s' - s) := by gcongr
      _ = 10 ^ (p + (s' - s)) := (pow_add _ _ _).symm
      _ ≤ 10 ^ p' := by gcongr <;> omega

/-- Without any digits there is only zero. -/
private theorem FitsDecimal.of_zero {x : ℚ} (h : FitsDecimal 0 s x) : FitsDecimal p' s' x := by
  obtain ⟨n, hn, hlt⟩ := h
  have hzero : n = 0 := Int.abs_lt_one_iff.1 hlt
  rw [hzero, Int.cast_zero, mul_eq_zero] at hn
  have hx : x = 0 := hn.resolve_right (by positivity)
  exact ⟨0, by rw [hx, zero_mul, Int.cast_zero], by rw [abs_zero]; positivity⟩

/-- With fewer digits before the point a power of ten does not fit any more. -/
private theorem exists_fits_not_fits (hpos : 0 < p) (hs : s ≤ s') (hp : p' + s < p + s') :
    ∃ x, FitsDecimal p s x ∧ ¬FitsDecimal p' s' x := by
  refine ⟨10 ^ (p - 1) / 10 ^ s, ⟨10 ^ (p - 1), ?_, ?_⟩, ?_⟩
  · rw [div_mul_cancel₀ _ (by positivity), Int.cast_pow, Int.cast_ofNat]
  · rw [abs_of_nonneg (by positivity)]
    gcongr <;> omega
  · rintro ⟨n, hn, hlt⟩
    have hsplit : s + (s' - s) = s' := by omega
    have hpow : (10 : ℚ) ^ (p - 1) / 10 ^ s * 10 ^ s' = 10 ^ (p - 1 + (s' - s)) := by
      rw [← hsplit, pow_add, pow_add, hsplit]
      field_simp
    have hvalue : n = 10 ^ (p - 1 + (s' - s)) := by
      rw [hpow] at hn
      exact_mod_cast hn.symm
    rw [hvalue, abs_of_nonneg (by positivity)] at hlt
    have hexponent := (pow_lt_pow_iff_right₀ (by norm_num : (1 : ℤ) < 10)).1 hlt
    omega

end Decimals

section Facets

variable {t m a b : SqlType} {p s : ℕ}

private theorem count_larger (x y : Option UInt8) :
    count (larger x y) = max (count x) (count y) := by
  rcases x with _ | x <;> rcases y with _ | y
  case some.some =>
    rw [larger]
    split
    · rename_i h
      exact (max_eq_right (UInt8.lt_iff_toNat_lt.1 h).le).symm
    · rename_i h
      exact (max_eq_left (UInt8.le_iff_toNat_le.1 (UInt8.not_lt.1 h))).symm
  all_goals simp [larger, count]

private theorem digits?_eq_some (h : t.digits? = some (p, s)) :
    ∃ x y, t.precision = some x ∧ t.scale = some y ∧ x.toNat = p ∧ y.toNat = s := by
  unfold digits? at h
  cases hp : t.precision with
  | none => simp [hp] at h
  | some x =>
    cases hs : t.scale with
    | none => simp [hp, hs] at h
    | some y =>
      simp only [hp, hs, Option.bind_eq_bind, Option.bind_some, Option.pure_def, Option.some.injEq,
        Prod.mk.injEq] at h
      exact ⟨x, y, rfl, rfl, h⟩

private theorem counts_of_digits? (h : t.digits? = some (p, s)) :
    count t.precision = p ∧ count t.scale = s := by
  obtain ⟨x, y, hx, hy, rfl, rfl⟩ := digits?_eq_some h
  rw [hx, hy]
  exact ⟨rfl, rfl⟩

/-- The digits of the widened type are known as soon as those of either type are. -/
private theorem digits?_widen (h : a.digits? = some (p, s) ∨ b.digits? = some (p, s)) :
    (a.widen b).digits? =
      some (max (count a.precision) (count b.precision), max (count a.scale) (count b.scale)) := by
  have hknown : (larger a.precision b.precision).isSome ∧ (larger a.scale b.scale).isSome := by
    rcases h with h | h
    · obtain ⟨x, y, hx, hy, -, -⟩ := digits?_eq_some h
      rw [hx, hy]
      constructor
      · cases b.precision <;> rfl
      · cases b.scale <;> rfl
    · obtain ⟨x, y, hx, hy, -, -⟩ := digits?_eq_some h
      rw [hx, hy]
      constructor
      · cases a.precision <;> rfl
      · cases a.scale <;> rfl
  obtain ⟨⟨x, hx⟩, ⟨y, hy⟩⟩ := hknown.imp Option.isSome_iff_exists.1 Option.isSome_iff_exists.1
  rw [← count_larger, ← count_larger, hx, hy]
  simp [digits?, widen, hx, hy, count]

private theorem isLengthBearing_of_hasTimeScale (h : t.hasTimeScale = true) :
    t.isLengthBearing = false := by
  simp only [hasTimeScale, List.contains_iff_mem, List.mem_cons, List.not_mem_nil, or_false] at h
  rcases h with h | h | h <;> rw [isLengthBearing, h] <;> decide

/-- What is known to fit into a type fits into one that covers it, if the digits
of a decimal have room in it. -/
private theorem Holds.of_coveredBy {v : Value} (h : t.Holds v) (hbase : t.base = m.base)
    (hc : t.CoveredBy m) (hdigits : t.isExactDecimal = true → ∀ p s, t.digits? = some (p, s) →
      ∃ p' s', m.digits? = some (p', s') ∧ s ≤ s' ∧ (p = 0 ∨ p + s' ≤ p' + s)) : m.Holds v := by
  have hlength : t.isLengthBearing = m.isLengthBearing := by
    rw [isLengthBearing, hbase, ← isLengthBearing]
  have hexact : t.isExactDecimal = m.isExactDecimal := by
    rw [isExactDecimal, hbase, ← isExactDecimal]
  have htime : t.hasTimeScale = m.hasTimeScale := by rw [hasTimeScale, hbase, ← hasTimeScale]
  cases v with
  | sized n =>
    obtain ⟨hb, l, hl, hn⟩ := h
    have hwithin := hc.length
    rw [hl] at hwithin
    cases hm : m.maxLength with
    | none =>
      rw [hm] at hwithin
      exact hwithin.elim
    | some l' =>
      rw [hm] at hwithin
      refine ⟨hlength ▸ hb, l', hm, ?_⟩
      rcases hwithin with hneg | ⟨hpos, hle⟩
      · exact .inl hneg
      · rcases hn with hneg | hn
        · exact absurd hpos (Int32.not_le.2 hneg)
        · exact .inr (hn.trans (Int32.le_iff_toInt_le.1 hle))
  | number x =>
    obtain ⟨he, p, s, hd, hfits⟩ := h
    obtain ⟨p', s', hd', hs, hp⟩ := hdigits he p s hd
    refine ⟨hexact ▸ he, p', s', hd', ?_⟩
    rcases hp with rfl | hp
    · exact hfits.of_zero
    · exact hfits.mono hs hp
  | time x =>
    obtain ⟨ht, s, hs, n, hn⟩ := h
    have hwithin := hc.scale (isLengthBearing_of_hasTimeScale (htime ▸ ht))
    rw [hs] at hwithin
    cases hm : m.scale with
    | none =>
      rw [hm] at hwithin
      exact hwithin.elim
    | some s' =>
      rw [hm] at hwithin
      have hsplit : s.toNat + (s'.toNat - s.toNat) = s'.toNat :=
        Nat.add_sub_cancel' (UInt8.le_iff_toNat_le.1 hwithin)
      refine ⟨htime ▸ ht, s', hm, n * 10 ^ (s'.toNat - s.toNat), ?_⟩
      rw [Int.cast_mul, ← hn, Int.cast_pow, Int.cast_ofNat, mul_assoc, ← pow_add, hsplit]
  | plain =>
    change (m.isLengthBearing || m.isExactDecimal || m.hasTimeScale) = false
    rw [← hlength, ← hexact, ← htime]
    exact h

/-- Where two decimals trade digits, a value of the first one does not fit
into what they are widened to. -/
private theorem TradesDigits.exists_lost (h : a.TradesDigits b)
    (hm : m.digits? =
      some (max (count a.precision) (count b.precision), max (count a.scale) (count b.scale))) :
    ∃ v, a.Holds v ∧ ¬m.Holds v := by
  obtain ⟨he, p, s, hd, hpos, hscale, hbefore⟩ := h
  obtain ⟨hp, hs⟩ := counts_of_digits? hd
  rw [hp, hs] at hm
  have hlost :
      ∃ x, FitsDecimal p s x ∧ ¬FitsDecimal (max p (count b.precision)) (max s (count b.scale)) x :=
    exists_fits_not_fits hpos (by omega) (by omega)
  obtain ⟨x, hfits, hnot⟩ := hlost
  refine ⟨.number x, ⟨he, p, s, hd, hfits⟩, ?_⟩
  rintro ⟨-, p', s', hd', hfits'⟩
  rw [hm] at hd'
  cases hd'
  exact hnot hfits'

/-- Where they do not, all values of the first one do. -/
private theorem Holds.of_not_tradesDigits {v : Value} (h : a.Holds v) (hbase : a.base = m.base)
    (hc : a.CoveredBy m) (hm : ∀ p s, a.digits? = some (p, s) →
      m.digits? =
        some (max (count a.precision) (count b.precision), max (count a.scale) (count b.scale)))
    (hno : ¬a.TradesDigits b) : m.Holds v := by
  refine h.of_coveredBy hbase hc fun he p s hd => ⟨_, _, hm p s hd, ?_⟩
  obtain ⟨hp, hs⟩ := counts_of_digits? hd
  rw [hp, hs]
  refine ⟨le_max_left _ _, ?_⟩
  by_contra hroom
  refine hno ⟨he, p, s, hd, ?_, ?_, ?_⟩ <;> omega

end Facets

/-- Two types of one base combine to a type of this base that covers both. It holds all values that
either one holds exactly if they do not trade digits. Of decimals with known digits it has the
larger precision and the larger scale; so it has as many digits before the point as either one
exactly if the one with the larger scale has as many of them as the other. -/
theorem merge_of_same_base {a b : SqlType} (h : a.base = b.base) :
    ∃ m, merge (some a) (some b) = some m ∧ m.base = a.base ∧ a.CoveredBy m ∧ b.CoveredBy m ∧
      ((∀ v, a.Holds v ∨ b.Holds v → m.Holds v) ↔ ¬a.TradesDigits b ∧ ¬b.TradesDigits a) ∧
      ∀ p s p' s', a.digits? = some (p, s) → b.digits? = some (p', s') →
        m.digits? = some (max p p', max s s') ∧
          ((p : ℤ) - s ≤ (max p p' : ℕ) - (max s s' : ℕ) ∧
            (p' : ℤ) - s' ≤ (max p p' : ℕ) - (max s s' : ℕ) ↔
            (s < s' → (p : ℤ) - s ≤ p' - s') ∧ (s' < s → (p' : ℤ) - s' ≤ p - s)) := by
  have hleft (p s : ℕ) (hd : a.digits? = some (p, s)) := digits?_widen (b := b) (.inl hd)
  have hright (p s : ℕ) (hd : b.digits? = some (p, s)) :
      (a.widen b).digits? =
        some (max (count b.precision) (count a.precision),
          max (count b.scale) (count a.scale)) := by
    rw [digits?_widen (.inr hd), max_comm (count a.precision), max_comm (count a.scale)]
  refine ⟨a.widen b, ?_, rfl, .widen_left a b, .widen_right a b, ?_,
    fun p s p' s' ha hb => ⟨?_, ?_⟩⟩
  · rw [merge, if_pos h]
  · constructor
    · intro hall
      constructor
      · intro ht
        obtain ⟨-, p, s, hd, -⟩ := id ht
        obtain ⟨v, hv, hnot⟩ := ht.exists_lost (hleft p s hd)
        exact hnot (hall v (.inl hv))
      · intro ht
        obtain ⟨-, p, s, hd, -⟩ := id ht
        obtain ⟨v, hv, hnot⟩ := ht.exists_lost (hright p s hd)
        exact hnot (hall v (.inr hv))
    · rintro ⟨hab, hba⟩ v (hv | hv)
      · exact hv.of_not_tradesDigits rfl (.widen_left a b) hleft hab
      · exact hv.of_not_tradesDigits h.symm (.widen_right a b) hright hba
  · rw [hleft p s ha, (counts_of_digits? ha).1, (counts_of_digits? ha).2, (counts_of_digits? hb).1,
      (counts_of_digits? hb).2]
  · omega

/-- Eight digits before the point on either side, and no fewer in what they combine to. -/
theorem merge_of_same_base_decimals :
    (decimal 12 4).base = (decimal 10 2).base ∧ ∃ m, merge (some (decimal 12 4))
    (some (decimal 10 2)) = some m ∧
      m.digits? = some (12, 4) ∧ ∀ v, (decimal 12 4).Holds v ∨ (decimal 10 2).Holds v →
      m.Holds v := by
  obtain ⟨m, hm, -, -, -, hvalues, hdigits⟩ :=
    merge_of_same_base (a := decimal 12 4) (b := decimal 10 2) rfl
  refine ⟨rfl, m, hm, (hdigits 12 4 10 2 rfl rfl).1, hvalues.2 ⟨?_, ?_⟩⟩
  · rintro ⟨-, p, s, hd, -, hscale, hbefore⟩
    obtain ⟨rfl, rfl⟩ : 12 = p ∧ 4 = s := Prod.mk.inj (Option.some.inj hd)
    revert hscale
    decide
  · rintro ⟨-, p, s, hd, -, hscale, hbefore⟩
    obtain ⟨rfl, rfl⟩ : 10 = p ∧ 2 = s := Prod.mk.inj (Option.some.inj hd)
    revert hbefore
    decide

/-- Eight digits before the point and two behind it, widened by four and four, leave six before the
point, although twelve digits would do for all: the values with eight are lost. -/
theorem merge_decimals_loses_digits :
    merge (some (decimal 10 2)) (some (decimal 8 4)) = some (decimal 10 4) ∧
      ∃ v, (decimal 10 2).Holds v ∧ (decimal 12 4).Holds v ∧ ¬(decimal 10 4).Holds v := by
  have hfits : FitsDecimal 10 2 10000000 := ⟨1000000000, by norm_num, by norm_num⟩
  refine ⟨by decide, .number 10000000, ⟨rfl, 10, 2, rfl, hfits⟩,
    ⟨rfl, 12, 4, rfl, hfits.mono (by norm_num) (by norm_num)⟩, ?_⟩
  rintro ⟨-, p, s, hd, n, hn, hlt⟩
  obtain ⟨rfl, rfl⟩ : 10 = p ∧ 4 = s := Prod.mk.inj (Option.some.inj hd)
  have hvalue : n = 100000000000 := by
    norm_num at hn
    exact_mod_cast hn.symm
  rw [hvalue] at hlt
  norm_num at hlt

/-- A type without facets takes those of the other one, on either side. -/
theorem merge_bare (t : SqlType) :
    merge (some ⟨t.base, none, none, none⟩) (some t) = some t ∧
      merge (some t) (some ⟨t.base, none, none, none⟩) = some t := by
  have hlength (l : Option Int32) : longer none l = l ∧ longer l none = l := by
    cases l <;> exact ⟨rfl, rfl⟩
  have hfacet (f : Option UInt8) : larger none f = f ∧ larger f none = f := by
    cases f <;> exact ⟨rfl, rfl⟩
  constructor
  · rw [merge, if_pos rfl, widen, (hlength _).1, (hfacet _).1, (hfacet _).1]
  · rw [merge, if_pos rfl, widen, (hlength _).2, (hfacet _).2, (hfacet _).2]

example : merge (some ⟨"varchar", none, none, none⟩) (some (varchar 1)) = some (varchar 1) := by
  decide

end ResultShape.SqlType
