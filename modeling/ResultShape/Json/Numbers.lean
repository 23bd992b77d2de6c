import ResultShape.Json.Basic
/-! Whole numbers in documents, each within the range of its type. -/
namespace ResultShape.Json

/-- An integer from zero up to, and without, a limit. -/
def natBelow? (limit : Nat) : Json → Option Nat
  | .integer n => if 0 ≤ n ∧ n < limit then some n.toNat else none
  | _ => none

def uint8? (j : Json) : Option UInt8 := (natBelow? UInt8.size j).map UInt8.ofNat

def int32? : Json → Option Int32
  | .integer n =>
    if Int32.minValue.toInt ≤ n ∧ n ≤ Int32.maxValue.toInt then some (Int32.ofInt n) else none
  | _ => none

def ofUInt8 (n : UInt8) : Json := .integer n.toNat

def ofInt32 (n : Int32) : Json := .integer n.toInt

theorem uint8?_ofUInt8 (n : UInt8) : uint8? (ofUInt8 n) = some n := by
  have := n.toNat_lt
  simp [uint8?, ofUInt8, natBelow?]
  omega

theorem int32?_ofInt32 (n : Int32) : int32? (ofInt32 n) = some n := by
  have := n.toInt_lt
  have := n.le_toInt
  simp only [int32?, ofInt32, Int32.toInt_minValue, Int32.toInt_maxValue]
  rw [if_pos (by omega)]
  simp

end ResultShape.Json
