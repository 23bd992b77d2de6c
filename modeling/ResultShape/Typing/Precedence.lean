import ResultShape.SqlType
/-! Type precedence: which of two types a combined value has, and how types of one base widen. -/
namespace ResultShape

namespace SqlType

/-- Precedence of a base name; the higher one wins, and an unknown name comes last. -/
def baseRanks : List (String × Nat) :=
  [("sql_variant", 90), ("datetimeoffset", 85), ("datetime2", 84), ("datetime", 83),
   ("smalldatetime", 82), ("date", 81), ("time", 80), ("float", 74), ("real", 73),
   ("decimal", 72), ("numeric", 72), ("money", 71), ("smallmoney", 70), ("bigint", 63),
   ("int", 62), ("smallint", 61), ("tinyint", 60), ("bit", 50), ("xml", 40), ("ntext", 40),
   ("text", 40), ("image", 40), ("nvarchar", 34), ("nchar", 33), ("varchar", 32), ("char", 31),
   ("varbinary", 30), ("binary", 29), ("uniqueidentifier", 20)]

/-- Precedence of a type; `(max)` lifts a text or binary type to the large objects. -/
def rank (t : SqlType) : Nat :=
  if t.isLengthBearing && t.isMax then 40 else (baseRanks.lookup t.base).getD 0

/-- The right type wins only when it ranks higher. -/
def yieldsTo (left right : SqlType) : Bool := left.rank < right.rank

/-- The type that wins; of equals the left one. -/
def dominant (left right : SqlType) : SqlType := if left.yieldsTo right then right else left

/-- The longer of two lengths; a negative one is longer than all others. -/
def longer : Option Int32 → Option Int32 → Option Int32
  | some a, some b =>
    if a < 0 then some a else if b < 0 then some b else some (if a < b then b else a)
  | a, b => a.or b

/-- The larger of two facets; one that is absent counts least. -/
def larger : Option UInt8 → Option UInt8 → Option UInt8
  | some a, some b => some (if a < b then b else a)
  | a, b => a.or b

/-- A type with each facet as large as that of either type. -/
def widen (a b : SqlType) : SqlType :=
  { a with
    maxLength := longer a.maxLength b.maxLength
    precision := larger a.precision b.precision
    scale := larger a.scale b.scale }

/-- One more type taken into a combined type: a type of the same base
widens it, of two bases one wins. -/
def merge : Option SqlType → Option SqlType → Option SqlType
  | some a, some b => some (if a.base = b.base then a.widen b else a.dominant b)
  | a, b => a.or b

/-- The combined type of a list of types, some of them unknown. -/
def mergeAll (types : List (Option SqlType)) : Option SqlType := types.foldl merge none

end SqlType

/-- Null when either side is; never null only when both sides are known never to be. -/
def eitherNullable : Option Bool → Option Bool → Option Bool
  | some true, _ | _, some true => some true
  | some false, some false => some false
  | _, _ => none

end ResultShape
