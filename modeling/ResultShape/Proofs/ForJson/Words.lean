import ResultShape.ForJson.Text
/-! Whole words in a text: a character that no word has cuts the search for
one into two searches. -/
namespace ResultShape.ForJson

open Text

/-- What follows the first occurrence of a whole word. -/
def firstWord? (word : String) (cs : List Char) : Option (List Char) :=
  (places cs).findSome? (wordAt? word)

theorem containsWord_eq_isSome (word : String) (cs : List Char) :
    containsWord word cs = (firstWord? word cs).isSome :=
  List.isSome_findSome?.symm

theorem root?_eq_firstWord? (cs : List Char) :
    root? cs = (firstWord? "ROOT" cs).map fun rest => (quotedArgument? rest).getD defaultRoot :=
  rfl

/-- Letters stand for letters: only a character of a word stands for one. -/
theorem isWord_of_standsFor {capital c : Char} (hcapital : isWord capital)
    (h : standsFor capital c) : isWord c := by
  simp only [standsFor, Bool.or_eq_true, Bool.and_eq_true, beq_iff_eq] at h
  rcases h with (h | ⟨-, rfl⟩) | ⟨-, rfl⟩
  · by_cases hc : c.isLower
    · have halpha : c.isAlphanum = (c.isUpper || c.isLower || c.isDigit) := rfl
      exact isWord_of_isAlphanum (by simp [halpha, hc])
    · have hupper : c.toUpper = c :=
        dif_neg fun h => hc (Bool.and_eq_true_iff.2 ⟨decide_eq_true h.1, decide_eq_true h.2⟩)
      rwa [← h, hupper] at hcapital
  · decide +kernel
  · decide +kernel

/-- A keyword is not empty, and all its characters are those of a word. -/
def IsKeyword (word : String) : Prop := word.toList ≠ [] ∧ ∀ c ∈ word.toList, isWord c

-- The characters of the word are asked one by one: with an instance that asks all characters
-- nothing is decided.
instance (word : String) : Decidable (IsKeyword word) :=
  @instDecidableAnd _ _ _ (List.decidableBAll _ _)

private theorem placesAfter_append (sign : Char) (before : Option Char) (xs ys : List Char) :
    placesAfter before (xs ++ sign :: ys) =
      (placesAfter before xs).map (fun p => (p.1, p.2 ++ sign :: ys)) ++
        placesAfter (some sign) ys := by
  induction xs generalizing before with
  | nil => rfl
  | cons c xs ih => simp only [List.cons_append, placesAfter, ih, List.map_cons]

section Cut

variable {sign : Char} (hsign : isWord sign = false)

include hsign

private theorem dropWord?_cut {word : List Char} (hword : ∀ c ∈ word, isWord c)
    (xs ys : List Char) :
    dropWord? word (xs ++ sign :: ys) = (dropWord? word xs).map (· ++ sign :: ys) := by
  induction word, xs using dropWord?.induct with
  | case1 xs => rfl
  | case2 capital word c xs hc ih =>
    simp only [List.cons_append, dropWord?, hc, if_true]
    exact ih fun c hc => hword c (List.mem_cons_of_mem _ hc)
  | case3 capital word c xs hc => simp [dropWord?, hc]
  | case4 capital word =>
    have hnot : standsFor capital sign = false := by
      refine Bool.eq_false_iff.2 fun h => ?_
      have hcontra := isWord_of_standsFor (hword capital List.mem_cons_self) h
      simp [hsign] at hcontra
    simp [dropWord?, hnot]

private theorem ends_cut (rest ys : List Char) :
    ends (rest ++ sign :: ys).head? = ends rest.head? := by
  cases rest with
  | nil => simp [ends, hsign]
  | cons c rest => rfl

private theorem wordAt?_cut {word : String} (hword : IsKeyword word) (before : Option Char)
    (xs ys : List Char) :
    wordAt? word (before, xs ++ sign :: ys) =
      (wordAt? word (before, xs)).map (· ++ sign :: ys) := by
  simp only [wordAt?, dropWord?_cut hsign hword.2]
  cases dropWord? word.toList xs with
  | none => rfl
  | some rest =>
    simp only [Option.map_some, Option.bind_eq_bind, Option.bind_some, ends_cut hsign]
    split <;> rfl

/-- Behind a character that is in no word the search goes on as at the start of a text. -/
private theorem findSome?_placesAfter (word : String) (ys : List Char) :
    (placesAfter (some sign) ys).findSome? (wordAt? word) = firstWord? word ys := by
  have hfirst : wordAt? word (some sign, ys) = wordAt? word (none, ys) := by
    simp [wordAt?, ends, hsign]
  cases ys <;> simp only [firstWord?, places, placesAfter, List.findSome?_cons, hfirst]

theorem firstWord?_cut {word : String} (hword : IsKeyword word) (xs ys : List Char) :
    firstWord? word (xs ++ sign :: ys) =
      ((firstWord? word xs).map (· ++ sign :: ys)).or (firstWord? word ys) := by
  have hleft (ps : List Place) :
      (ps.map fun p => (p.1, p.2 ++ sign :: ys)).findSome? (wordAt? word) =
        (ps.findSome? (wordAt? word)).map (· ++ sign :: ys) := by
    rw [List.findSome?_map, List.map_findSome?]
    congr 1
    funext p
    exact wordAt?_cut hsign hword p.1 p.2 ys
  calc firstWord? word (xs ++ sign :: ys)
      = (((placesAfter none xs).map fun p => (p.1, p.2 ++ sign :: ys)).findSome? (wordAt? word)).or
          ((placesAfter (some sign) ys).findSome? (wordAt? word)) := by
        rw [firstWord?, places, placesAfter_append sign, List.findSome?_append]
    _ = _ := by rw [hleft, findSome?_placesAfter hsign]; rfl

theorem containsWord_cut {word : String} (hword : IsKeyword word) (xs ys : List Char) :
    containsWord word (xs ++ sign :: ys) = (containsWord word xs || containsWord word ys) := by
  simp only [containsWord_eq_isSome, firstWord?_cut hsign hword, Option.isSome_or,
    Option.isSome_map]

end Cut

theorem firstWord?_nil {word : String} (hword : IsKeyword word) : firstWord? word [] = none := by
  obtain ⟨hne, -⟩ := hword
  cases hcs : word.toList with
  | nil => exact absurd hcs hne
  | cons c cs => simp [firstWord?, places, placesAfter, wordAt?, hcs, dropWord?]

theorem firstWord?_cons {word : String} (hword : IsKeyword word) {sign : Char}
    (hsign : isWord sign = false)
    (cs : List Char) : firstWord? word (sign :: cs) = firstWord? word cs := by
  simpa [firstWord?_nil hword] using firstWord?_cut hsign hword [] cs

theorem containsWord_nil {word : String} (hword : IsKeyword word) :
    containsWord word [] = false := by
  rw [containsWord_eq_isSome, firstWord?_nil hword, Option.isSome_none]

theorem containsWord_cons {word : String} (hword : IsKeyword word) {sign : Char}
    (hsign : isWord sign = false)
    (cs : List Char) : containsWord word (sign :: cs) = containsWord word cs := by
  simp only [containsWord_eq_isSome, firstWord?_cons hword hsign]

end ResultShape.ForJson
