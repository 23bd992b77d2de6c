import ResultShape.Decimal.Basic
/-! Shortest decimal text of a double: the fewest digits that read back,
and of those the nearest. -/
namespace ResultShape.Decimal

/-- A double taken apart: the number `±mantissa · 2 ^ exponent`, an infinity, or no number. -/
inductive Binary where
  | notANumber
  | infinite (negative : Bool)
  | finite (negative : Bool) (mantissa : Nat) (exponent : Int)
  deriving DecidableEq, Repr

/-- Reads the fields of the sixty-four bits: sign, eleven bits of exponent,
fifty-two of mantissa. -/
def Binary.ofBits (bits : Nat) : Binary :=
  let negative := bits / twoTo 63 % 2 = 1
  let exponent : Nat := bits / twoTo 52 % twoTo 11
  let fraction : Nat := bits % twoTo 52
  if exponent = 2047 then if fraction = 0 then .infinite negative else .notANumber
  else if exponent = 0 then .finite negative fraction (-1074)
  else .finite negative (twoTo 52 + fraction) (exponent - 1075)

/-- The positive numbers that round to `mantissa · 2 ^ exponent`, in quarters of `2 ^ exponent`. -/
structure Interval where
  low : Nat
  centre : Nat
  high : Nat
  /-- The ends round to the number too. -/
  closed : Bool

/-- Below a power of two the neighbour is half as far; the ends belong to an even mantissa. -/
def Interval.around (mantissa : Nat) (exponent : Int) : Interval :=
  let narrow := mantissa = twoTo 52 ∧ exponent > -1074
  { low := 4 * mantissa - (if narrow then 1 else 2)
    centre := 4 * mantissa
    high := 4 * mantissa + 2
    closed := mantissa % 2 = 0 }

def Interval.contains (i : Interval) (scale unit n : Nat) : Bool :=
  if i.closed then i.low * scale ≤ n * unit && n * unit ≤ i.high * scale
  else i.low * scale < n * unit && n * unit < i.high * scale

/-- The multiple of `10 ^ place` in the interval that is nearest to its centre, the
larger of two equally near. -/
def Interval.nearest? (i : Interval) (exponent place : Int) : Option Nat :=
  let scale := twoTo (exponent - 2).toNat * tenTo (-place).toNat
  let unit := twoTo (2 - exponent).toNat * tenTo place.toNat
  let below := i.centre * scale / unit
  let above := below + 1
  match i.contains scale unit below, i.contains scale unit above with
  | false, false => none
  | true, false => some below
  | false, true => some above
  | true, true =>
    some (if i.centre * scale - below * unit < above * unit - i.centre * scale
      then below else above)

/-- Tries ever finer grids, from `10 ^ place` on. -/
private def search (i : Interval) (exponent : Int) : Nat → Int → Nat × Int
  | 0, _ => (0, 0)
  | tries + 1, place =>
    match i.nearest? exponent place with
    | some n => (n, place)
    | none => search i exponent tries (place - 1)

/-- The power of ten above a positive number `mantissa · 2 ^ exponent`. -/
def magnitude (mantissa : Nat) (exponent : Int) : Int :=
  (length (mantissa * tenTo 400 * twoTo exponent.toNat / twoTo (-exponent).toNat) : Int) - 400

/-- Digits and place of the shortest decimal that rounds to a positive number;
seventeen digits always do. -/
def shortest (mantissa : Nat) (exponent : Int) : Nat × Int :=
  search (.around mantissa exponent) exponent 19 (magnitude mantissa exponent)

/-- A whole number of tenth powers written out with a point where it is
needed, and without exponent. -/
def positional (n : Nat) (place : Int) : String :=
  let digits := Nat.toDigits 10 n
  if place ≥ 0 then String.ofList (digits ++ List.replicate place.toNat '0')
  else
    let places := (-place).toNat
    let padded := List.replicate (places + 1 - digits.length) '0' ++ digits
    String.ofList
      (padded.take (padded.length - places) ++ '.' :: padded.drop (padded.length - places))

/-- The text of a double: shortest digits, no exponent, a minus also before a negative zero. -/
def text (x : Float) : String :=
  let sign (negative : Bool) := if negative then "-" else ""
  match Binary.ofBits x.toBits.toNat with
  | .notANumber => "NaN"
  | .infinite negative => sign negative ++ "inf"
  | .finite negative 0 _ => sign negative ++ "0"
  | .finite negative mantissa exponent =>
    let (n, place) := shortest mantissa exponent
    sign negative ++ positional n place

end ResultShape.Decimal
