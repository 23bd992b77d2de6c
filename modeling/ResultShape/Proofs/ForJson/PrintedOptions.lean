import ResultShape.ForJson.Options
import ResultShape.Proofs.ForJson.Words
import ResultShape.Proofs.Text.Options
import ResultShape.Sql.Literal
/-! Options as text: what is found in the text of `FOR JSON` options, and when
it is what the options state. -/
namespace ResultShape

namespace JsonOption

/-- The option as SQL writes it. -/
def text : JsonOption → String
  | .root none => "ROOT"
  | .root (some name) => "ROOT('" ++ Literal.doubleQuotes name ++ "')"
  | .includeNullValues => "INCLUDE_NULL_VALUES"
  | .withoutArrayWrapper => "WITHOUT_ARRAY_WRAPPER"
  | .unparsed text => text

def isStructured : JsonOption → Bool
  | .unparsed _ => false
  | _ => true

/-- The root that the option states. -/
def rootName? : JsonOption → Option String
  | .root name => some (name.getD ForJson.defaultRoot)
  | _ => none

/-- The options that take no argument of any kind. -/
def flags : List JsonOption := [.withoutArrayWrapper, .includeNullValues]

end JsonOption

namespace ForJson

open JsonOption Text

/-- The options as SQL writes them. -/
def printed (options : List JsonOption) : String := ", ".intercalate (options.map text)

/-- The roots that options state, in order. -/
def rootNames (options : List JsonOption) : List String := options.filterMap rootName?

/-- What a clause says beside its mode and its text. -/
def settings (f : ForJson) : Option Bool × Option String × Option Bool :=
  (f.withoutArrayWrapper, f.rootName, f.includeNullValues)

theorem rootNames_cons (o : JsonOption) (options : List JsonOption) :
    rootNames (o :: options) = o.rootName?.toList ++ rootNames options := by
  cases o <;> rfl

@[simp] theorem rootNames_root_cons (name : Option String) (options : List JsonOption) :
    rootNames (.root name :: options) = name.getD defaultRoot :: rootNames options :=
  rfl

private theorem settings_foldl_withOption (options : List JsonOption) (f : ForJson) :
    settings (options.foldl withOption f) =
      (if options.contains .withoutArrayWrapper then some true else f.withoutArrayWrapper,
        (rootNames options).getLast?.or f.rootName,
        if options.contains .includeNullValues then some true else f.includeNullValues) := by
  induction options generalizing f with
  | nil => rfl
  | cons o options ih =>
    rw [List.foldl_cons, ih]
    cases o with
    | root name =>
      simp only [withOption, rootNames_root_cons, List.getLast?_cons, Option.some_or]
      cases (rootNames options).getLast? <;> simp
    | includeNullValues | withoutArrayWrapper | unparsed => simp [withOption, rootNames, rootName?]

/-- With structure, each flag counts where it is listed, and of two roots the last one. -/
theorem settings_ofClause? (mode : JsonMode) (options : List JsonOption) :
    (ofClause? (.json mode options)).map settings =
      some (if options.contains .withoutArrayWrapper then some true else none,
        (rootNames options).getLast?,
        if options.contains .includeNullValues then some true else none) := by
  simp only [ofClause?, Option.map_some, settings_foldl_withOption, Option.or_none]

/-- From text, each flag counts where its word stands, and of two roots the first one. -/
theorem settings_fill_unparsed (mode : JsonMode) (text : String) :
    (ofClause? (.json mode [.unparsed text])).map (fun f => (f.fill none).settings) =
      some (if containsWord "WITHOUT_ARRAY_WRAPPER" text.toList then some true else none,
        root? text.toList,
        if containsWord "INCLUDE_NULL_VALUES" text.toList then some true else none) :=
  rfl

/-- The part of the text that comes after an option. -/
def continued : List JsonOption → List Char
  | [] => []
  | o :: options => ',' :: ' ' :: (printed (o :: options)).toList

theorem toList_printed_cons (o : JsonOption) (options : List JsonOption) :
    (printed (o :: options)).toList = o.text.toList ++ continued options := by
  cases options with
  | nil => simp [printed, continued]
  | cons o' options => simp [printed, continued, String.toList_intercalate]

/-- A text as it stands between quotes. -/
def doubled (cs : List Char) : List Char :=
  cs.flatMap fun c => if c = '\'' then [c, c] else [c]

private theorem toList_text_root (name : String) :
    (JsonOption.root (some name)).text.toList =
      "ROOT".toList ++ '(' :: '\'' :: (doubled name.toList ++ '\'' :: [')']) := by
  simp [text, Literal.doubleQuotes, doubled]

private theorem doubled_of_not_mem {cs : List Char} (h : '\'' ∉ cs) : doubled cs = cs := by
  induction cs with
  | nil => rfl
  | cons c cs ih =>
    simp only [List.mem_cons, not_or] at h
    obtain ⟨hc, hcs⟩ := h
    rw [doubled, List.flatMap_cons, ← doubled, if_neg (Ne.symm hc), ih hcs]
    rfl

private theorem doubled_append_quote (before behind : List Char) :
    doubled (before ++ '\'' :: behind) = doubled before ++ '\'' :: '\'' :: doubled behind := by
  rw [doubled, List.flatMap_append, List.flatMap_cons, if_pos rfl]
  rfl

section Words

variable {word : String} (hword : IsKeyword word)

include hword

/-- No word spans two options. -/
private theorem firstWord?_printed_cons (o : JsonOption) (options : List JsonOption) :
    firstWord? word (printed (o :: options)).toList =
      ((firstWord? word o.text.toList).map (· ++ continued options)).or
        (firstWord? word (printed options).toList) := by
  rw [toList_printed_cons]
  cases options with
  | nil => simp [continued, printed, firstWord?_nil hword]
  | cons o' options =>
    rw [continued, firstWord?_cut (by decide) hword, firstWord?_cons hword (by decide)]

theorem containsWord_printed (options : List JsonOption) :
    containsWord word (printed options).toList = options.any fun o =>
      containsWord word o.text.toList := by
  induction options with
  | nil => exact containsWord_nil hword
  | cons o options ih =>
    rw [List.any_cons, ← ih]
    simp only [containsWord_eq_isSome, firstWord?_printed_cons hword, Option.isSome_or,
      Option.isSome_map]

/-- Quotes part the words of a text whether they are written once or twice;
`before` is what precedes the text. -/
private theorem containsWord_doubled (before cs : List Char) :
    containsWord word (before ++ doubled cs) = containsWord word (before ++ cs) := by
  induction cs generalizing before with
  | nil => rfl
  | cons c cs ih =>
    rw [doubled, List.flatMap_cons, ← doubled]
    split
    · rename_i hc
      subst hc
      have hrest : containsWord word (doubled cs) = containsWord word cs := ih []
      rw [List.cons_append, List.singleton_append, containsWord_cut (by decide) hword,
        containsWord_cons hword (by decide), hrest, containsWord_cut (by decide) hword]
    · rw [List.append_cons before c cs, ← ih, List.append_assoc]

theorem containsWord_text_root (hroot : containsWord word "ROOT".toList = false)
    (hdefault : containsWord word defaultRoot.toList = false) (name : Option String) :
    containsWord word (JsonOption.root name).text.toList =
      containsWord word (name.getD defaultRoot).toList := by
  cases name with
  | none => exact hroot.trans hdefault.symm
  | some name =>
    have hname : containsWord word (doubled name.toList) = containsWord word name.toList :=
      containsWord_doubled hword [] name.toList
    rw [toList_text_root, containsWord_cut (by decide) hword, containsWord_cons hword (by decide),
      containsWord_cut (by decide) hword, containsWord_cons hword (by decide),
      containsWord_nil hword, hroot, hname, Bool.false_or, Bool.or_false, Option.getD_some]

end Words

private theorem isKeyword_root : IsKeyword "ROOT" := by decide

private theorem quotedArgument?_continued (options : List JsonOption) :
    quotedArgument? (continued options) = none := by
  cases options <;> rfl

/-- The argument goes up to the first quote behind the one that opens it. -/
private theorem quotedArgument?_of_not_mem {cs : List Char} (h : '\'' ∉ cs) (rest : List Char) :
    quotedArgument? ('(' :: '\'' :: (cs ++ '\'' :: rest)) =
      if (rest.dropWhile isBlank).head? = some ')' then some (String.ofList cs) else none := by
  have hall : ∀ c ∈ cs, decide (c ≠ '\'') = true :=
    fun c hc => decide_eq_true fun heq => h (heq ▸ hc)
  have hafter : (cs ++ '\'' :: rest).dropWhile (· ≠ '\'') = '\'' :: rest := by
    rw [List.dropWhile_append_of_pos hall]
    rfl
  have hbefore : (cs ++ '\'' :: rest).takeWhile (· ≠ '\'') = cs := by
    rw [List.takeWhile_append_of_pos hall]
    simp
  rw [quotedArgument?_eq, List.dropWhile_cons_of_neg (by decide), after?_cons, Option.bind_some,
    List.dropWhile_cons_of_neg (by decide), after?_cons, Option.bind_some, hafter, hbefore,
    after?_cons, Option.bind_some]

/-- A quote in the name is doubled, and the first one of the two ends the argument
where no parenthesis closes. -/
private theorem quotedArgument?_doubled (name : String) (rest : List Char) :
    quotedArgument? ('(' :: '\'' :: (doubled name.toList ++ '\'' :: ')' :: rest)) =
      if '\'' ∈ name.toList then none else some name := by
  by_cases hquote : '\'' ∈ name.toList
  · obtain ⟨before, behind, hname, hbefore⟩ := List.eq_append_cons_of_mem hquote
    have hdoubled : doubled name.toList = before ++ '\'' :: '\'' :: doubled behind := by
      rw [hname, doubled_append_quote, doubled_of_not_mem hbefore]
    rw [hdoubled, List.append_assoc, List.cons_append, quotedArgument?_of_not_mem hbefore,
      if_pos hquote]
    exact if_neg (by simp [isBlank])
  · rw [doubled_of_not_mem hquote, quotedArgument?_of_not_mem hquote, if_neg hquote,
      String.ofList_toList]
    rfl

/-- What is read of the name of a root: with a quote in it, the default name. -/
def readRoot (name : String) : String := if '\'' ∈ name.toList then defaultRoot else name

/-- The argument that is read behind the first `ROOT`. -/
private theorem firstWord?_root (name : Option String) :
    ∃ rest, firstWord? "ROOT" (JsonOption.root name).text.toList = some rest ∧
      ∀ options, (quotedArgument? (rest ++ continued options)).getD defaultRoot =
        readRoot (name.getD defaultRoot) := by
  have hfirst : firstWord? "ROOT" "ROOT".toList = some [] := by decide
  cases name with
  | none =>
    refine ⟨[], hfirst, fun options => ?_⟩
    rw [List.nil_append, quotedArgument?_continued]
    rfl
  | some name =>
    refine ⟨'(' :: '\'' :: (doubled name.toList ++ '\'' :: [')']), ?_, fun options => ?_⟩
    · rw [toList_text_root, firstWord?_cut (by decide) isKeyword_root, hfirst]
      rfl
    · have hargument := quotedArgument?_doubled name (continued options)
      rw [List.cons_append, List.cons_append, List.append_assoc]
      change (quotedArgument? ('(' :: '\'' :: (_ ++ '\'' :: ')' :: continued options))).getD _ = _
      rw [hargument, apply_ite fun o : Option String => o.getD defaultRoot]
      rfl

/-- The first root is read as it stands, or by the default name if there is a quote in its name. -/
theorem root?_printed {options : List JsonOption} (hstructured : ∀ o ∈ options, o.isStructured) :
    root? (printed options).toList = (rootNames options).head?.map readRoot := by
  induction options with
  | nil => rfl
  | cons o options ih =>
    rw [root?_eq_firstWord?, firstWord?_printed_cons isKeyword_root]
    cases o with
    | root name =>
      obtain ⟨rest, hrest, hargument⟩ := firstWord?_root name
      rw [hrest, Option.map_some, Option.some_or, Option.map_some, hargument options]
      rfl
    | includeNullValues | withoutArrayWrapper =>
      exact ih fun o ho => hstructured o (List.mem_cons_of_mem _ ho)
    | unparsed text => exact absurd (hstructured _ List.mem_cons_self) (by simp [isStructured])

example : root? (printed [.root (some "O'Brien"), .root (some "b")]).toList = some "root" := by
  decide

private theorem containsWord_flag_text {flag : JsonOption} (hflag : flag ∈ flags) {o : JsonOption}
    (ho : o.isStructured) :
    containsWord flag.text o.text.toList =
      (o == flag || o.rootName?.any fun name => containsWord flag.text name.toList) := by
  have hkeyword : IsKeyword flag.text := by revert flag; decide
  cases o with
  | root name =>
    have hroot : containsWord flag.text "ROOT".toList = false := by revert flag; decide
    have hdefault : containsWord flag.text defaultRoot.toList = false := by revert flag; decide
    have hne : (JsonOption.root name == flag) = false := by
      refine beq_eq_false_iff_ne.2 fun heq => ?_
      simp [← heq, flags] at hflag
    rw [containsWord_text_root hkeyword hroot hdefault, hne]
    rfl
  | includeNullValues | withoutArrayWrapper => revert flag; decide
  | unparsed text => exact absurd ho (by simp [isStructured])

/-- The word of a flag stands in the text of options where the flag is listed or a
root is named with that word. -/
theorem containsWord_printed_flag {flag : JsonOption} (hflag : flag ∈ flags)
    {options : List JsonOption} (hstructured : ∀ o ∈ options, o.isStructured) :
    containsWord flag.text (printed options).toList =
      (options.contains flag || (rootNames options).any fun name =>
        containsWord flag.text name.toList) := by
  have hkeyword : IsKeyword flag.text := by revert flag; decide
  rw [containsWord_printed hkeyword]
  induction options with
  | nil => rfl
  | cons o options ih =>
    have hrest := ih fun o ho => hstructured o (List.mem_cons_of_mem _ ho)
    have hown (p : String → Bool) : o.rootName?.toList.any p = o.rootName?.any p := by
      cases o.rootName? <;> simp
    rw [List.any_cons, hrest, containsWord_flag_text hflag (hstructured o List.mem_cons_self),
      rootNames_cons, List.contains_cons, List.any_append, hown, BEq.comm (a := flag)]
    ac_rfl

/-- A flag is found in the text just where it is listed, unless a root is named with its word. -/
private theorem flag_agrees_iff {flag : JsonOption} (hflag : flag ∈ flags)
    {options : List JsonOption} (hstructured : ∀ o ∈ options, o.isStructured) :
    (if containsWord flag.text (printed options).toList then some true else none) =
        (if options.contains flag then some true else none : Option Bool) ↔
      (flag ∉ options →
        ∀ name ∈ rootNames options, containsWord flag.text name.toList = false) := by
  rw [containsWord_printed_flag hflag hstructured, ← List.contains_iff_mem]
  cases options.contains flag with
  | true => simp
  | false =>
    cases h : (rootNames options).any fun name => containsWord flag.text name.toList <;> simp_all

/-- The options found in the text of a list are those of the list just when its first and its last
root have the same name and no root is named with the word of a flag that is not listed. A first
root with a quote in its name is left out: `root?_printed` says what is read instead. -/
theorem settings_fill_printed_iff (mode : JsonMode) {options : List JsonOption}
    (hstructured : ∀ o ∈ options, o.isStructured)
    (hquote : ∀ name ∈ (rootNames options).head?, '\'' ∉ name.toList) :
    (ofClause? (.json mode [.unparsed (printed options)])).map (fun f => (f.fill none).settings) =
        (ofClause? (.json mode options)).map settings ↔
      (rootNames options).head? = (rootNames options).getLast? ∧
        ∀ flag ∈ flags, flag ∉ options →
          ∀ name ∈ rootNames options, containsWord flag.text name.toList = false := by
  have hwrapper := @flag_agrees_iff .withoutArrayWrapper (by decide) options hstructured
  have hnulls := @flag_agrees_iff .includeNullValues (by decide) options hstructured
  have hroot : (rootNames options).head?.map readRoot = (rootNames options).head? := by
    cases h : (rootNames options).head? with
    | none => rfl
    | some name => exact congrArg some (if_neg (hquote name h))
  rw [settings_fill_unparsed, settings_ofClause?, root?_printed hstructured, hroot,
    Option.some.injEq, Prod.mk.injEq, Prod.mk.injEq]
  refine (and_congr hwrapper (and_congr Iff.rfl hnulls)).trans ?_
  simp only [flags, List.forall_mem_cons, List.not_mem_nil, false_implies, implies_true, and_true]
  exact and_left_comm

/-- A list with one root, named with the word of the flag that is listed beside it and with that of
a root: neither is found where it does not count. -/
theorem settings_fill_printed_example :
    (ofClause? (.json .path [.unparsed
        (printed [.root (some "Without_Array_Wrapper, ROOT"), .withoutArrayWrapper])])).map
        (fun f => (f.fill none).settings) =
      (ofClause? (.json .path
        [.root (some "Without_Array_Wrapper, ROOT"), .withoutArrayWrapper])).map settings :=
  (settings_fill_printed_iff .path (by decide) (by decide)).2 (by decide)

/-- Of two roots the text gives the first one and the options the last one, and a root can be named
with the word of a flag that is not listed. -/
theorem settings_fill_printed_differs :
    (ofClause? (.json .path [.unparsed (printed [.root (some "a"), .root (some "b")])])).map
          (fun f => (f.fill none).settings) ≠
        (ofClause? (.json .path [.root (some "a"), .root (some "b")])).map settings ∧
      (ofClause? (.json .path [.unparsed (printed [.root (some "WITHOUT_ARRAY_WRAPPER")])])).map
          (fun f => (f.fill none).settings) ≠
        (ofClause? (.json .path [.root (some "WITHOUT_ARRAY_WRAPPER")])).map settings := by
  decide

end ForJson

end ResultShape
