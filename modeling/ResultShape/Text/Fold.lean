/-! Identifier case: names are compared after their ASCII letters are folded to lower case. -/
namespace ResultShape.Text

/-- ASCII capitals become small letters; every other character stays as it is. -/
def fold (s : String) : String := String.ofList (s.toList.map Char.toLower)

/-- Two names are the same when they fold to the same text. -/
def same (a b : String) : Bool := fold a == fold b

theorem same_iff {a b : String} : same a b = true ↔ fold a = fold b := by simp [same]

theorem same_refl (a : String) : same a a = true := by simp [same]

theorem same_comm (a b : String) : same a b = same b a := by
  rw [Bool.eq_iff_iff, same_iff, same_iff, eq_comm]

end ResultShape.Text
