/-! Dotted text: the pieces between the dots, and the text they make again. -/
namespace ResultShape.Text

/-- The pieces of a text between the separators; there is always at least one. -/
def split (sep : Char) : List Char → List (List Char)
  | [] => [[]]
  | c :: cs => if c = sep then [] :: split sep cs else (split sep cs).modifyHead (c :: ·)

/-- Pieces written with one separator between neighbours. -/
def glue (sep : Char) : List (List Char) → List Char
  | [] => []
  | [piece] => piece
  | piece :: rest => piece ++ sep :: glue sep rest

/-- The pieces between the dots of a name. -/
def segments (s : String) : List String := (split '.' s.toList).map String.ofList

theorem split_ne_nil (sep : Char) (cs : List Char) : split sep cs ≠ [] := by
  induction cs with
  | nil => simp [split]
  | cons c cs ih =>
    simp only [split]
    split
    · simp
    · cases h : split sep cs <;> simp_all

private theorem glue_modifyHead (sep c : Char) {pieces : List (List Char)} (h : pieces ≠ []) :
    glue sep (pieces.modifyHead (c :: ·)) = c :: glue sep pieces := by
  match pieces, h with
  | [_], _ => rfl
  | _ :: _ :: _, _ => rfl

/-- Splitting loses nothing. -/
theorem glue_split (sep : Char) (cs : List Char) : glue sep (split sep cs) = cs := by
  induction cs with
  | nil => rfl
  | cons c cs ih =>
    simp only [split]
    split
    · rename_i h
      subst h
      match h : split c cs, split_ne_nil c cs with
      | piece :: rest, _ => rw [h] at ih; simp [glue, ih]
    · rw [glue_modifyHead sep c (split_ne_nil sep cs), ih]

theorem sep_not_mem_of_mem_split {sep : Char} {cs piece : List Char} (h : piece ∈ split sep cs) :
    sep ∉ piece := by
  induction cs generalizing piece with
  | nil => simp_all [split]
  | cons c cs ih =>
    simp only [split] at h
    split at h
    · rcases List.mem_cons.1 h with rfl | h
      · simp
      · exact ih h
    · rename_i hc
      match hs : split sep cs, split_ne_nil sep cs with
      | first :: rest, _ =>
        rw [hs, List.modifyHead_cons, List.mem_cons] at h
        rw [hs] at ih
        rcases h with rfl | h
        · have := @ih first (by simp)
          simp_all [eq_comm]
        · exact ih (by simp [h])

theorem split_of_not_mem {sep : Char} {cs : List Char} (h : sep ∉ cs) : split sep cs = [cs] := by
  induction cs with
  | nil => rfl
  | cons c cs ih =>
    simp only [List.mem_cons, not_or] at h
    simp [split, Ne.symm h.1, ih h.2]

end ResultShape.Text
