import ResultShape.ForJson.Options
import ResultShape.Text.Blank
import ResultShape.Text.Word
/-! `FOR JSON` options found in plain text: whole words in any case, after the last `FOR JSON`. -/
namespace ResultShape.ForJson

/-- A character stands for a capital letter if it folds to it; the long s
and the Kelvin sign do so too. -/
def standsFor (capital c : Char) : Bool :=
  c.toUpper == capital || (capital == 'S' && c == 'ſ') || (capital == 'K' && c == '\u212a')

/-- What follows a word given in capitals, in a text that begins with it. -/
def dropWord? : List Char → List Char → Option (List Char)
  | [], cs => some cs
  | capital :: word, c :: cs => if standsFor capital c then dropWord? word cs else none
  | _ :: _, [] => none

/-- A place in a text: the character before it and what follows. -/
abbrev Place := Option Char × List Char

def placesAfter : Option Char → List Char → List Place
  | before, [] => [(before, [])]
  | before, c :: cs => (before, c :: cs) :: placesAfter (some c) cs

/-- All places of a text in order. -/
def places (cs : List Char) : List Place := placesAfter none cs

/-- No word goes on at this side of a place. -/
def ends (c : Option Char) : Bool := !c.any Text.isWord

/-- What follows a whole word at a place. -/
def wordAt? (word : String) (p : Place) : Option (List Char) := do
  let rest ← dropWord? word.toList p.2
  if ends p.1 && ends rest.head? then some rest else none

def containsWord (word : String) (cs : List Char) : Bool :=
  (places cs).any fun p => (wordAt? word p).isSome

/-- `FOR`, blanks and `JSON`, with no word going on at either side. -/
def isForJson (p : Place) : Bool :=
  match wordAt? "FOR" p with
  | some rest =>
    rest.head?.any Text.isBlank && (wordAt? "JSON" (some ' ', rest.dropWhile Text.isBlank)).isSome
  | none => false

/-- The text from its last `FOR JSON` on. -/
def suffix? (cs : List Char) : Option (List Char) :=
  ((places cs).filter isForJson).getLast?.map (·.2)

/-- A text in parentheses and quotes; blanks may stand around both. -/
def quotedArgument? (cs : List Char) : Option String :=
  match cs.dropWhile Text.isBlank with
  | '(' :: cs =>
    match cs.dropWhile Text.isBlank with
    | '\'' :: cs =>
      match cs.dropWhile (· ≠ '\'') with
      | '\'' :: rest =>
        if (rest.dropWhile Text.isBlank).head? = some ')'
        then some (String.ofList (cs.takeWhile (· ≠ '\'')))
        else none
      | _ => none
    | _ => none
  | _ => none

/-- The root of the first `ROOT` in a text: its argument, or the default name. -/
def root? (cs : List Char) : Option String :=
  ((places cs).findSome? (wordAt? "ROOT")).map fun rest => (quotedArgument? rest).getD defaultRoot

def orIfFound (found : Bool) (value : Option Bool) : Option Bool :=
  value.or (if found then some true else none)

/-- Takes from one text what is not stated yet. -/
def fillFrom (f : ForJson) (cs : List Char) : ForJson :=
  { f with
    withoutArrayWrapper := orIfFound (containsWord "WITHOUT_ARRAY_WRAPPER" cs) f.withoutArrayWrapper
    includeNullValues := orIfFound (containsWord "INCLUDE_NULL_VALUES" cs) f.includeNullValues
    rootName := f.rootName.or (root? cs) }

/-- Takes what is not stated from the option texts and then from the query text
behind its last `FOR JSON`. -/
def fill (f : ForJson) (sourceText : Option String) : ForJson :=
  let suffix := sourceText.bind fun s => suffix? s.toList
  (f.unparsed.map String.toList ++ suffix.toList).foldl fillFrom f

end ResultShape.ForJson
