import ResultShape.Name
import ResultShape.SqlType
/-! Type references: a type name with facets, as a declaration or a cast writes it. -/
namespace ResultShape

structure DataType where
  name : Name
  length : Option Int32
  precision : Option UInt8
  scale : Option UInt8
  deriving DecidableEq, Repr, Inhabited

namespace DataType

/-- A type named without a schema. -/
def bare (name : String) : DataType := ⟨.bare name, none, none, none⟩

/-- A type named with its schema. -/
def user (schema name : String) : DataType := ⟨.qualified schema name, none, none, none⟩

def withLength (t : DataType) (length : Int32) : DataType := { t with length := some length }

/-- The reference with the length `(max)`. -/
def max (t : DataType) : DataType := t.withLength SqlType.unbounded

def withPrecision (t : DataType) (precision scale : UInt8) : DataType :=
  { t with precision := some precision, scale := some scale }

def withScale (t : DataType) (scale : UInt8) : DataType := { t with scale := some scale }

/-- The reference as SQL writes it; a length hides precision and scale. -/
def text (t : DataType) : String :=
  match t.length, t.precision, t.scale with
  | some length, _, _ =>
    SqlType.withFacets t.name.text [if length < 0 then "max" else toString length]
  | none, some precision, some scale =>
    SqlType.withFacets t.name.text [toString precision, toString scale]
  | none, some precision, none => SqlType.withFacets t.name.text [toString precision]
  | none, none, some scale => SqlType.withFacets t.name.text [toString scale]
  | none, none, none => t.name.text

end DataType

end ResultShape
