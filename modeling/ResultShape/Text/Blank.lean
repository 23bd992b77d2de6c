/-! Blanks: the characters with the Unicode property White_Space, and
trimming and splitting by them. -/
namespace ResultShape.Text

/-- The property White_Space. -/
def isBlank (c : Char) : Bool :=
  let n := c.toNat
  (9 ≤ n && n ≤ 13) || n == 0x20 || n == 0x85 || n == 0xA0 || n == 0x1680 ||
    (0x2000 ≤ n && n ≤ 0x200A) || n == 0x2028 || n == 0x2029 || n == 0x202F || n == 0x205F ||
    n == 0x3000

/-- Every blank that the character type knows is one here. -/
theorem isBlank_of_isWhitespace {c : Char} (h : c.isWhitespace) : isBlank c := by
  simp only [Char.isWhitespace, Bool.or_eq_true, decide_eq_true_eq, or_assoc] at h
  rcases h with rfl | rfl | rfl | rfl <;> decide

/-- The list without its longest run of `p` at the end. -/
def dropEndWhile (p : Char → Bool) (cs : List Char) : List Char :=
  (cs.reverse.dropWhile p).reverse

/-- The text without blanks at either end. -/
def trim (cs : List Char) : List Char := dropEndWhile isBlank (cs.dropWhile isBlank)

/-- The runs of other characters between the blanks. -/
def words : List Char → List (List Char)
  | [] => []
  | c :: cs =>
    if isBlank c then words cs
    else match cs with
      | [] => [[c]]
      | next :: _ => if isBlank next then [c] :: words cs else (words cs).modifyHead (c :: ·)

theorem not_blank_of_mem_words {cs word : List Char} (h : word ∈ words cs) :
    ∀ c ∈ word, isBlank c = false := by
  induction cs generalizing word with
  | nil => simp [words] at h
  | cons c cs ih =>
    simp only [words] at h
    split at h
    · exact ih h
    · rename_i hc
      match cs, h with
      | [], h => simp_all
      | next :: rest, h =>
        simp only at h
        split at h
        · rcases List.mem_cons.1 h with rfl | h
          · simp_all
          · exact ih h
        · match hw : words (next :: rest) with
          | [] => simp [hw] at h
          | first :: others =>
            rw [hw, List.modifyHead_cons, List.mem_cons] at h
            rw [hw] at ih
            rcases h with rfl | h
            · have := @ih first (by simp)
              simp_all
            · exact ih (by simp [h])

end ResultShape.Text
