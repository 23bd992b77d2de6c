import ResultShape.Decimal.Basic
/-! The double nearest to a decimal, worked out on whole numbers. -/
namespace ResultShape.Decimal

/-- A quotient rounded to the nearest whole number, a half to the even one. -/
def roundDiv (num den : Nat) : Nat :=
  let quotient := num / den
  let twice := 2 * (num % den)
  if twice < den then quotient else if den < twice then quotient + 1 else quotient + quotient % 2

/-- The quotient chosen is at most half a divisor away from the number. -/
theorem roundDiv_near (num : Nat) {den : Nat} (h : 0 < den) :
    2 * num ≤ 2 * (roundDiv num den * den) + den ∧
    2 * (roundDiv num den * den) ≤ 2 * num + den := by
  have hq := Nat.div_add_mod' num den
  have hr := Nat.mod_lt num h
  have hs : (num / den + 1) * den = num / den * den + den := Nat.succ_mul _ _
  unfold roundDiv
  dsimp only
  split
  · omega
  · split
    · omega
    · rcases Nat.mod_two_eq_zero_or_one (num / den) with he | he <;> rw [he]
      · rw [Nat.add_zero]
        omega
      · omega

/-- The bits of infinity; those of every finite double are fewer. -/
def infinityBits : Nat := 2047 * twoTo 52

/-- The bits of the double nearest to `num / den`. The step between neighbours is a power of two,
such that the mantissa has fifty-three bits, or the least step there is; a mantissa that rounds up
to one bit more gives the bits of the next power. -/
def nearestBits (num den : Nat) : Nat :=
  let scaled (step : Int) : Nat × Nat := (num * twoTo (-step).toNat, den * twoTo step.toNat)
  let least : Int := -1074
  let guess : Int := (num.log2 : Int) - den.log2 - 53
  let step :=
    max least (if (scaled guess).1 < twoTo 53 * (scaled guess).2 then guess else guess + 1)
  min infinityBits ((step - least).toNat * twoTo 52 + roundDiv (scaled step).1 (scaled step).2)

/-- The bits of the nearest double, the sign aside. Far out of range no quotient is needed. -/
def nearest (d : Decimal) : Nat :=
  let places : Int := d.exponent + length d.digits
  if d.digits = 0 || places < -400 then 0
  else if 400 < places then infinityBits
  else nearestBits (d.digits * tenTo d.exponent.toNat) (tenTo (-d.exponent).toNat)

/-- The nearest double. -/
def toFloat (d : Decimal) : Float :=
  .ofBits (.ofNat ((if d.negative then twoTo 63 else 0) + d.nearest))

/-- A double from a number in free form, or from a word for infinity or for
no number, in any case. -/
def readDouble? (s : String) : Option Float :=
  let (sign, rest) := takeSign (s.toList.map Char.toLower)
  let signed (x : Float) := if sign = some '-' then -x else x
  match String.ofList rest with
  | "inf" | "infinity" => some (signed (1 / 0))
  | "nan" => some (0 / 0)
  | _ => (readFree? s.toList).map toFloat

end ResultShape.Decimal
