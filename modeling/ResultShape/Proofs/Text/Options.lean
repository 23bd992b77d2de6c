import ResultShape.ForJson.Text
import ResultShape.Proofs.Text.Fold
/-! Options in text: which `FOR JSON` options are found in a text does not depend
on the case of its letters. -/
namespace ResultShape.ForJson

open Text

private theorem isWord_toLower (c : Char) : isWord c.toLower = isWord c :=
  apply_toLower (by decide) c

private theorem isBlank_toLower (c : Char) : isBlank c.toLower = isBlank c :=
  apply_toLower (by decide) c

private theorem standsFor_toLower (capital c : Char) :
    standsFor capital c.toLower = standsFor capital c := by
  have hupper := apply_toLower (f := Char.toUpper) (by decide) c
  have hlong := apply_toLower (f := (· == 'ſ')) (by decide) c
  have hkelvin := apply_toLower (f := (· == '\u212a')) (by decide) c
  simp only [standsFor, hupper, hlong, hkelvin]

/-- The place in the folded text. -/
def Place.fold (p : Place) : Place := (p.1.map Char.toLower, p.2.map Char.toLower)

private theorem places_fold (cs : List Char) :
    places (cs.map Char.toLower) = (places cs).map Place.fold := by
  have hall (before : Option Char) :
      placesAfter (before.map Char.toLower) (cs.map Char.toLower) =
        (placesAfter before cs).map Place.fold := by
    induction cs generalizing before with
    | nil => rfl
    | cons c cs ih =>
      simp only [List.map_cons, placesAfter, ← ih (some c), Option.map_some, Place.fold]
  exact hall none

private theorem dropWord?_fold (word cs : List Char) :
    dropWord? word (cs.map Char.toLower) = (dropWord? word cs).map (List.map Char.toLower) := by
  induction word, cs using dropWord?.induct with
  | case1 cs => rfl
  | case2 capital word c cs hc ih =>
    simp only [List.map_cons, dropWord?, standsFor_toLower, hc, if_true, ih]
  | case3 capital word c cs hc => simp [dropWord?, standsFor_toLower, hc]
  | case4 capital word => rfl

private theorem ends_fold (c : Option Char) : ends (c.map Char.toLower) = ends c := by
  cases c with
  | none => rfl
  | some c => simp only [ends, Option.map_some, Option.any_some, isWord_toLower]

private theorem wordAt?_fold (word : String) (p : Place) :
    wordAt? word p.fold = (wordAt? word p).map (List.map Char.toLower) := by
  unfold wordAt? Place.fold
  rw [dropWord?_fold]
  cases dropWord? word.toList p.2 with
  | none => rfl
  | some rest =>
    simp only [Option.map_some, Option.bind_eq_bind, Option.bind_some, List.head?_map, ends_fold]
    split <;> rfl

theorem containsWord_fold (word : String) (cs : List Char) :
    containsWord word (cs.map Char.toLower) = containsWord word cs := by
  simp only [containsWord, places_fold, List.any_map, Function.comp_def, wordAt?_fold,
    Option.isSome_map]

private theorem dropWhile_fold {p : Char → Bool} (h : ∀ c, p c.toLower = p c) (cs : List Char) :
    (cs.map Char.toLower).dropWhile p = (cs.dropWhile p).map Char.toLower := by
  rw [List.dropWhile_map]
  congr 2
  funext c
  exact h c

private theorem isForJson_fold (p : Place) : isForJson p.fold = isForJson p := by
  unfold isForJson
  rw [wordAt?_fold]
  cases wordAt? "FOR" p with
  | none => rfl
  | some rest =>
    have hjson : (some ' ', (rest.map Char.toLower).dropWhile isBlank) =
        Place.fold (some ' ', rest.dropWhile isBlank) := by
      rw [dropWhile_fold isBlank_toLower]
      rfl
    simp only [Option.map_some, List.head?_map, Option.any_map, isBlank_toLower,
      hjson, wordAt?_fold, Option.isSome_map]

theorem suffix?_fold (cs : List Char) :
    suffix? (cs.map Char.toLower) = (suffix? cs).map (List.map Char.toLower) := by
  simp only [suffix?, places_fold, List.filter_map, Function.comp_def, isForJson_fold,
    List.getLast?_map, Option.map_map]
  rfl

/-- What follows a character that a text begins with. -/
def after? (d : Char) : List Char → Option (List Char)
  | c :: cs => if c = d then some cs else none
  | [] => none

theorem after?_cons (d : Char) (cs : List Char) : after? d (d :: cs) = some cs := if_pos rfl

private theorem after?_eq_none {d : Char} {cs : List Char} (h : ∀ rest, cs ≠ d :: rest) :
    after? d cs = none := by
  cases cs with
  | nil => rfl
  | cons c rest =>
    have hc : c ≠ d := fun hc => h rest (by rw [hc])
    exact if_neg hc

/-- A quoted argument is read part by part. -/
theorem quotedArgument?_eq (cs : List Char) :
    quotedArgument? cs =
      (after? '(' (cs.dropWhile isBlank)).bind fun inner =>
        (after? '\'' (inner.dropWhile isBlank)).bind fun text =>
          (after? '\'' (text.dropWhile (· ≠ '\''))).bind fun rest =>
            if (rest.dropWhile isBlank).head? = some ')'
            then some (String.ofList (text.takeWhile (· ≠ '\'')))
            else none := by
  unfold quotedArgument?
  split
  · rename_i cs₁ h₁
    rw [h₁, after?_cons, Option.bind_some]
    split
    · rename_i cs₂ h₂
      rw [h₂, after?_cons, Option.bind_some]
      split
      · rename_i rest h₃
        rw [h₃, after?_cons, Option.bind_some]
      · rename_i h₃
        rw [after?_eq_none h₃, Option.bind_none]
    · rename_i h₂
      rw [after?_eq_none h₂, Option.bind_none]
  · rename_i h₁
    rw [after?_eq_none h₁, Option.bind_none]

private theorem after?_fold {d : Char} (h : IsSign d) (cs : List Char) :
    after? d (cs.map Char.toLower) = (after? d cs).map (List.map Char.toLower) := by
  cases cs with
  | nil => rfl
  | cons c cs =>
    simp only [List.map_cons, after?, toLower_eq_iff h]
    split <;> rfl

private theorem quotedArgument?_fold (cs : List Char) :
    quotedArgument? (cs.map Char.toLower) = (quotedArgument? cs).map Text.fold := by
  have hquote (c : Char) : decide (c.toLower ≠ '\'') = decide (c ≠ '\'') :=
    decide_eq_decide.2 (not_congr (toLower_eq_iff (by decide) c))
  rw [quotedArgument?_eq, quotedArgument?_eq, dropWhile_fold isBlank_toLower,
    after?_fold (by decide)]
  cases after? '(' (cs.dropWhile isBlank) with
  | none => rfl
  | some inner =>
    simp only [Option.map_some, Option.bind_some]
    rw [dropWhile_fold isBlank_toLower, after?_fold (by decide)]
    cases after? '\'' (inner.dropWhile isBlank) with
    | none => rfl
    | some text =>
      simp only [Option.map_some, Option.bind_some]
      rw [dropWhile_fold hquote, after?_fold (by decide)]
      cases after? '\'' (text.dropWhile (· ≠ '\'')) with
      | none => rfl
      | some rest =>
        simp only [Option.map_some, Option.bind_some]
        have hclose (c : Option Char) : c.map Char.toLower = some ')' ↔ c = some ')' := by
          cases c with
          | none => rfl
          | some c =>
            simpa only [Option.map_some, Option.some.injEq] using
              toLower_eq_iff (d := ')') (by decide) c
        rw [dropWhile_fold isBlank_toLower, List.head?_map, List.takeWhile_map]
        simp only [hclose]
        split
        · simp only [Function.comp_def, hquote, Option.map_some, Text.fold, String.toList_ofList]
        · rfl

theorem root?_fold (cs : List Char) :
    (root? (cs.map Char.toLower)).map Text.fold = (root? cs).map Text.fold := by
  have hroot : (places (cs.map Char.toLower)).findSome? (wordAt? "ROOT") =
      ((places cs).findSome? (wordAt? "ROOT")).map (List.map Char.toLower) := by
    simp only [places_fold, List.findSome?_map, Function.comp_def, wordAt?_fold, List.map_findSome?]
  unfold root?
  rw [hroot]
  cases (places cs).findSome? (wordAt? "ROOT") with
  | none => rfl
  | some rest =>
    simp only [Option.map_some, quotedArgument?_fold, Option.some.injEq]
    cases quotedArgument? rest with
    | none => rfl
    | some name => exact Text.fold_fold name

end ResultShape.ForJson
