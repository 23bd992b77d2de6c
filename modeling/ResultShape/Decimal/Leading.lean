import ResultShape.Decimal.Nearest
/-! Written numbers cut down to the leading digits that fit a word, and the range
of doubles they are held to. -/
namespace ResultShape.Decimal

/-- Continues a number by the digits behind it while it fits a word; the
digits left over come with it. -/
def takeFitting (n : Nat) : List Char → Nat × List Char
  | [] => (n, [])
  | c :: cs => if pushDigit n c < UInt64.size then takeFitting (pushDigit n c) cs else (n, c :: cs)

/-- What is taken fits. -/
theorem takeFitting_lt {n : Nat} (h : n < UInt64.size) (cs : List Char) :
    (takeFitting n cs).1 < UInt64.size := by
  induction cs generalizing n with
  | nil => exact h
  | cons c cs ih =>
    unfold takeFitting
    split
    · exact ih (by assumption)
    · exact h

/-- The digits taken and those left over are the digits given. -/
theorem takeFitting_append (n : Nat) (cs : List Char) :
    ∃ taken, taken ++ (takeFitting n cs).2 = cs ∧
      (takeFitting n cs).1 = taken.foldl pushDigit n := by
  induction cs generalizing n with
  | nil => exact ⟨[], rfl, rfl⟩
  | cons c cs ih =>
    unfold takeFitting
    split
    · obtain ⟨taken, hs, hv⟩ := ih (pushDigit n c)
      exact ⟨c :: taken, by rw [List.cons_append, hs], hv⟩
    · exact ⟨[], rfl, rfl⟩

/-- Only a digit too many ends the taking. -/
theorem takeFitting_maximal {n : Nat} {cs rest : List Char} {c : Char}
    (h : (takeFitting n cs).2 = c :: rest) :
    UInt64.size ≤ pushDigit (takeFitting n cs).1 c := by
  induction cs generalizing n with
  | nil => simp [takeFitting] at h
  | cons d cs ih =>
    unfold takeFitting at h ⊢
    split at h
    · rw [if_pos (by assumption)]
      exact ih h
    · rw [if_neg (by assumption)]
      obtain ⟨rfl, -⟩ := List.cons.inj h
      exact Nat.le_of_not_lt (by assumption)

/-- The number with the leading digits that fit a word. A whole digit left over counts
as a zero, and the digits of the fraction go on from the whole digits taken; those of
them left over are dropped. -/
def Written.leading? (w : Written) : Option Decimal := do
  let power ← w.power.getD (some 0)
  let fraction := w.fraction.getD []
  let (whole, wholeRest) := takeFitting 0 w.whole
  let (digits, fractionRest) := takeFitting whole fraction
  return ⟨w.sign = some '-', digits,
    power + wholeRest.length + fractionRest.length - fraction.length⟩

/-- A number rounded to the fifty-three bits of a mantissa, a half to the even one. -/
def roundMantissa (n : Nat) : Nat :=
  let step := twoTo (n.log2 + 1 - 53)
  roundDiv n step * step

/-- The number is at most half a step away. -/
theorem roundMantissa_near (n : Nat) :
    2 * n ≤ 2 * roundMantissa n + twoTo (n.log2 + 1 - 53) ∧
    2 * roundMantissa n ≤ 2 * n + twoTo (n.log2 + 1 - 53) :=
  roundDiv_near n (Nat.pow_pos (by decide))

/-- Whether the double of the digits, multiplied by that of the power of ten, is beyond the largest
double; the powers from the 309th on have none. A division, for a negative power, stays in range. -/
def overflows (d : Decimal) : Bool :=
  d.digits != 0 && 0 ≤ d.exponent && (308 < d.exponent ||
    twoTo 1024 ≤ roundMantissa (roundMantissa d.digits * roundMantissa (tenTo d.exponent.toNat)))

end ResultShape.Decimal
