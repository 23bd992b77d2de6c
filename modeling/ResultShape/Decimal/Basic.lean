/-! Decimals: a sign, digits and a power of ten, and the two written forms they are read from. -/
namespace ResultShape

/-- The number `±digits · 10 ^ exponent`. -/
structure Decimal where
  negative : Bool
  digits : Nat
  exponent : Int
  deriving DecidableEq, Repr, Inhabited

namespace Decimal

def twoTo (power : Nat) : Nat := Nat.pow 2 power

def tenTo (power : Nat) : Nat := Nat.pow 10 power

/-- A written number taken apart, before any grammar is imposed on its parts. -/
structure Written where
  /-- The sign as written, if there is one. -/
  sign : Option Char
  whole : List Char
  /-- The digits after the point, if there is a point. -/
  fraction : Option (List Char)
  /-- The power of ten after the mark, if there is a mark. -/
  power : Option (Option Int)

/-- A number with one more decimal digit at its end. -/
def pushDigit (n : Nat) (c : Char) : Nat := 10 * n + (c.toNat - '0'.toNat)

/-- The value of a run of decimal digits. -/
def ofDigits (cs : List Char) : Nat := cs.foldl pushDigit 0

def takeSign : List Char → Option Char × List Char
  | '-' :: cs => (some '-', cs)
  | '+' :: cs => (some '+', cs)
  | cs => (none, cs)

/-- The power after the mark: a sign and at least one digit, up to the end of the text. -/
private def power? (cs : List Char) : Option Int :=
  let (sign, digits) := takeSign cs
  if digits.isEmpty || !digits.all Char.isDigit then none
  else some (if sign = some '-' then -(ofDigits digits : Int) else ofDigits digits)

private def ofPower (sign : Option Char) (whole : List Char) (fraction : Option (List Char)) :
    List Char → Option Written
  | [] => some ⟨sign, whole, fraction, none⟩
  | c :: cs => if c = 'e' ∨ c = 'E' then some ⟨sign, whole, fraction, some (power? cs)⟩ else none

/-- Takes a text apart into sign, digits, point, digits, mark and power. -/
def Written.ofChars? (cs : List Char) : Option Written :=
  let (sign, rest) := takeSign cs
  let whole := rest.takeWhile Char.isDigit
  match rest.dropWhile Char.isDigit with
  | '.' :: rest =>
    ofPower sign whole (some (rest.takeWhile Char.isDigit)) (rest.dropWhile Char.isDigit)
  | rest => ofPower sign whole none rest

/-- The number that the parts stand for, unless the mark has no power behind it. -/
def Written.value? (w : Written) : Option Decimal := do
  let power ← w.power.getD (some 0)
  let fraction := w.fraction.getD []
  return ⟨w.sign = some '-', ofDigits (w.whole ++ fraction), power - fraction.length⟩

/-- The strict form: no plus sign, no superfluous zero in front, digits on both sides of a point. -/
def Written.strict (w : Written) : Bool :=
  w.sign != some '+' && (w.whole == ['0'] || (!w.whole.isEmpty && w.whole.head? != some '0')) &&
    w.fraction != some []

/-- The free form: a digit somewhere before the power. -/
def Written.free (w : Written) : Bool := !(w.whole ++ w.fraction.getD []).isEmpty

/-- A number in strict form written without point and power. -/
def Written.integral (w : Written) : Bool := w.fraction.isNone && w.power.isNone

def readFree? (cs : List Char) : Option Decimal := do
  let w ← Written.ofChars? cs
  if w.free then w.value? else none

/-- How many digits a number has in base ten; zero has one. -/
def length (n : Nat) : Nat := (Nat.toDigits 10 n).length

end Decimal

end ResultShape
