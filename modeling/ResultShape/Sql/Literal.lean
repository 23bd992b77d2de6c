import ResultShape.Decimal.Shortest
/-! Literals: constants as SQL writes them. -/
namespace ResultShape

inductive Literal where
  | null
  | int (value : Int)
  /-- An exact number, kept as written. -/
  | decimal (text : String)
  | real (value : Float)
  | money (text : String)
  /-- A string; `unicode` when it is written with an `N` in front. -/
  | string (value : String) (unicode : Bool)
  /-- The hexadecimal digits of a binary constant, without `0x`. -/
  | binary (digits : String)
  deriving Inhabited

namespace Literal

def isNull : Literal → Bool
  | .null => true
  | _ => false

/-- Every quote inside is written twice. -/
def doubleQuotes (s : String) : String :=
  String.ofList (s.toList.flatMap fun c => if c = '\'' then [c, c] else [c])

/-- The literal as SQL writes it. -/
def text : Literal → String
  | .null => "NULL"
  | .int value => toString value
  | .decimal text => text
  | .real value => Decimal.text value
  | .money text => "$" ++ text
  | .string value unicode => (if unicode then "N'" else "'") ++ doubleQuotes value ++ "'"
  | .binary digits => "0x" ++ digits

/-- The number with the upper limit of a precision. -/
def capped (n : Nat) : UInt8 := UInt8.ofNat (min n 38)

/-- Precision and scale of an exact number, by its digits; signs and zeros in front do not count. -/
def precisionAndScale (text : String) : UInt8 × UInt8 :=
  let unsigned := text.toList.dropWhile fun c => c == '-' || c == '+'
  let whole := (unsigned.takeWhile (· ≠ '.')).dropWhile (· = '0')
  let scale := ((unsigned.dropWhile (· ≠ '.')).drop 1).countP Char.isDigit
  (capped (max 1 (whole.countP Char.isDigit + scale)), capped scale)

end Literal

end ResultShape
