import Mathlib.Data.List.Nodup
import ResultShape.Proofs.Analysis.Register
/-! Qualifiers: a source is found by its alias and by names of its own, and a name that several
sources of a `FROM` clause go by finds the first of them. An alias therefore finds its source,
unless one before it has that name. -/
namespace ResultShape

/-- The alias that a leaf is given. -/
def Source.alias? : Source → Option String
  | .named _ aliasName => aliasName
  | .var _ aliasName => aliasName
  | .derived _ aliasName _ => some aliasName
  | .function _ _ aliasName => aliasName
  | .openJson _ _ _ aliasName => aliasName
  | .join .. => none

/-- The names that a leaf is found by whatever its alias is. A derived table has none. -/
def Source.ownNames (env : Env) (c : Context) : Source → List String
  | .named name _ =>
    if name.isLocal then [name.name]
    else
      match c.cteNamed? name with
      | some cte => [cte.name]
      | none =>
        let inSchema := name.schema.getD env.config.defaultSchema ++ "." ++ name.name
        [name.name, inSchema] ++ (name.catalog.map (· ++ "." ++ inSchema)).toList
  | .var name _ => [name]
  | .function name _ _ => [name.name]
  | .openJson .. => ["OPENJSON"]
  | _ => []

namespace Leaf

/-- A name is one of those that the leaf has whatever its alias is. -/
def hasOwnName (env : Env) (c : Context) (name : String) (l : Leaf) : Bool :=
  (l.source.ownNames env c).any (Text.same · name)

/-- A name is the alias of the leaf or one of its own names. -/
def goesBy (env : Env) (c : Context) (name : String) (l : Leaf) : Bool :=
  l.source.alias?.any (Text.same · name) || l.hasOwnName env c name

variable {env : Env} {c c' : Context} {name : String}

private theorem any_names (l : Leaf) :
    (l.source.alias?.toList ++ l.source.ownNames env c).any (Text.same · name) =
      l.goesBy env c name := by
  rw [List.any_append, goesBy, hasOwnName]
  cases l.source.alias? <;> simp

private theorem goesBy_alias {l : Leaf} (h : l.source.alias? = some name) :
    l.goesBy env c name = true := by
  rw [goesBy, h, Option.any_some, Text.same_refl, Bool.true_or]

private theorem goesBy_congr (hc : c'.cteFrames = c.cteFrames) (l : Leaf) :
    l.goesBy env c' name = l.goesBy env c name := by
  have hframes (n : Name) : c'.cteNamed? n = c.cteNamed? n := by
    simp only [Context.cteNamed?, Context.findCte?, hc]
  unfold goesBy hasOwnName Source.ownNames
  split <;> simp only [hframes]

private theorem findIdx?_under (mayMiss : Bool) (ls : List Leaf) :
    (ls.map (.under mayMiss)).findIdx? (goesBy env c name) = ls.findIdx? (goesBy env c name) := by
  rw [List.findIdx?_map]
  rfl

end Leaf

namespace Scope

private theorem get?_foldl_insertNew (names : List String) (keys : Keyed String Nat) (i : Nat)
    (name : String) :
    (names.foldl (fun keys n => keys.insertNew (Text.fold n) i) keys).get? (Text.fold name) =
      (keys.get? (Text.fold name)).or (if names.any (Text.same · name) then some i else none) := by
  induction names generalizing keys with
  | nil => simp
  | cons n names ih =>
    rw [List.foldl_cons, ih, Keyed.get?_insertNew, List.any_cons]
    by_cases hn : Text.fold n = Text.fold name
    · rw [if_pos hn, hn, Text.same_iff.2 hn]
      cases keys.get? (Text.fold name) <;> rfl
    · have hsame : Text.same n name = false := by simpa [Text.same] using hn
      rw [if_neg hn, hsame, Bool.false_or]

/-- A name finds what it found before, or else the entry that is added under it. -/
theorem index?_add (s : Scope) (e : Entry) (names : List String) (name : String) :
    (s.add e names).index? name =
      (s.index? name).or (if names.any (Text.same · name) then some s.entries.length else none) :=
  get?_foldl_insertNew names s.keys s.entries.length name

end Scope

namespace ScopeStack

variable {catalog : Catalog} {stack stack' : ScopeStack}

theorem innermost_add (stack : ScopeStack) (e : Entry) (names : List String) :
    (stack.add e names).innermost = stack.innermost.add e names := by
  cases stack <;> rfl

theorem length_innermost (stack : ScopeStack) :
    stack.innermost.entries.length = stack.entries.length := by
  cases stack <;> rfl

private theorem keys_markNullable (first last : Nat) (stack : ScopeStack) :
    (stack.markNullable first last).innermost.keys = stack.innermost.keys := by
  cases stack <;> rfl

theorem Loaded.keys (h : Loaded catalog stack stack') :
    stack'.innermost.keys = stack.innermost.keys := by
  cases h with
  | nil => rfl
  | cons hs _ => exact hs.keys

theorem Loaded.length_entries (h : Loaded catalog stack stack') :
    stack'.entries.length = stack.entries.length :=
  h.entries.length_eq.symm

end ScopeStack

namespace Analysis

/-- In the innermost scope a name finds what it found before, or else the first of
these leaves that goes by it. -/
def FindsFirst (env : Env) (ls : List Leaf) (c c' : Context) : Prop :=
  ∀ name, c'.scopes.innermost.index? name =
    (c.scopes.innermost.index? name).or
      ((ls.findIdx? (·.goesBy env c name)).map (c.scopes.entries.length + ·))

namespace FindsFirst

variable {env : Env} {k : Nat} {ls ls₁ ls₂ : List Leaf} {c c₁ c₂ c' : Context} {l : Leaf}

theorem nil (c : Context) : FindsFirst env [] c c := fun _ => (Option.or_none).symm

/-- What is registered first is found first. -/
theorem append (h₁ : FindsFirst env ls₁ c c₁) (ha : Appends env ls₁ c c₁)
    (h₂ : FindsFirst env ls₂ c₁ c₂) :
    FindsFirst env (ls₁ ++ ls₂) c c₂ := by
  intro name
  have hgoes : Leaf.goesBy env c₁ name = Leaf.goesBy env c name :=
    funext (Leaf.goesBy_congr ha.showsAs.cteFrames)
  have hlen : (fun i => c₁.scopes.entries.length + i) =
      (c.scopes.entries.length + ·) ∘ (· + ls₁.length) := by
    funext i
    rw [ha.length_entries, Function.comp_apply]
    omega
  rw [h₂ name, h₁ name, hgoes, hlen, List.findIdx?_append, Option.map_or, Option.map_map,
    Option.or_assoc]

/-- A leaf is added under its alias and its own names, to the scopes as
they are up to loaded columns. -/
private theorem leaf {e : Entry} {names : List String} {stack : ScopeStack}
    (hc : c'.scopes = stack.add e names) (hl : ScopeStack.Loaded env.catalog c.scopes stack)
    (hn : names = l.source.alias?.toList ++ l.source.ownNames env c) : FindsFirst env [l] c c' := by
  intro name
  have hindex : stack.innermost.index? name = c.scopes.innermost.index? name := by
    rw [Scope.index?, Scope.index?, hl.keys]
  rw [hc, ScopeStack.innermost_add, Scope.index?_add, hindex, ScopeStack.length_innermost,
    hl.length_entries, hn, Leaf.any_names, List.findIdx?_singleton]
  cases l.goesBy env c name <;> rfl

private theorem addDerived {q : Query} {aliasName : String} {renames : List String}
    (h : (addDerived (Nested.within k) q aliasName renames).outcome env c = (.ok (), c')) :
    FindsFirst env [⟨.derived q aliasName renames, false⟩] c c' := by
  obtain ⟨set, c₁, hq, h⟩ := outcome_bind_eq_ok.1 h
  cases h
  have hl := (Loads.within env k q).1 c
  rw [hq] at hl
  exact leaf rfl hl rfl

private theorem addNamed {name : Name} {aliasName : Option String}
    (h : (addNamed (Nested.within k) name aliasName).outcome env c = (.ok (), c')) :
    FindsFirst env [⟨.named name aliasName, false⟩] c c' := by
  unfold Analysis.addNamed at h
  split at h
  · rename_i hlocal
    cases h
    exact leaf rfl (.refl _) (by simp [Source.alias?, Source.ownNames, hlocal])
  · rename_i hlocal
    obtain ⟨c₀, c₁, hget, h⟩ := outcome_bind_eq_ok.1 h
    cases hget
    split at h
    · rename_i cte hname
      obtain ⟨m, c₁, hm, h⟩ := outcome_bind_eq_ok.1 h
      cases h
      have hl := Loads.cteColumns env (Nested.within k) cte c
      rw [hm] at hl
      exact leaf rfl hl (by simp [Source.alias?, Source.ownNames, hlocal, hname])
    · rename_i hname
      cases h
      exact leaf rfl (.refl _) (by simp [Source.alias?, Source.ownNames, hlocal, hname])

private theorem addFunction {name : Name} {args : List Expr} {aliasName : Option String}
    (h : (addFunction name aliasName).outcome env c = (.ok (), c')) :
    FindsFirst env [⟨.function name args aliasName, false⟩] c c' := by
  unfold Analysis.addFunction at h
  split at h <;>
  · cases h
    exact leaf rfl (.refl _) rfl

/-- To mark entries takes no name from any of them. -/
private theorem marked {mayMissLeft mayMissRight : Bool} {l r : Nat × Nat}
    (h : FindsFirst env (ls₁ ++ ls₂) c c₂) (hm : (do
      markSide mayMissLeft l
      markSide mayMissRight r).outcome env c₂ = (.ok (), c')) :
    FindsFirst env (ls₁.map (.under mayMissLeft) ++ ls₂.map (.under mayMissRight)) c c' := by
  intro name
  obtain ⟨_, c₃, hm₁, hm₂⟩ := outcome_bind_eq_ok.1 hm
  rw [Appends.outcome_markSide] at hm₁ hm₂
  cases hm₁
  cases hm₂
  have hkeys (mayMiss : Bool) (side : Nat × Nat) (stack : ScopeStack) :
      (if mayMiss then stack.markNullable side.1 side.2 else stack).innermost.keys =
        stack.innermost.keys := by
    cases mayMiss
    · rfl
    · exact ScopeStack.keys_markNullable side.1 side.2 stack
  have hfound := h name
  rw [List.findIdx?_append] at hfound ⊢
  rw [Leaf.findIdx?_under, Leaf.findIdx?_under, List.length_map, ← hfound, Scope.index?,
    Scope.index?, hkeys, hkeys]

/-- A name that was not found before finds the first leaf of a registered source that goes by it. -/
theorem register (s : Source) {range : Nat × Nat}
    (h : (s.register (Nested.within k)).outcome env c = (.ok range, c')) :
    FindsFirst env (s.leaves false) c c' := by
  induction s using Source.register.induct generalizing c c' range with
  | case1 name aliasName => exact addNamed (Appends.of_added h).1
  | case2 name aliasName =>
    obtain ⟨hx, -⟩ := Appends.of_added h
    cases hx
    exact leaf rfl (.refl _) rfl
  | case3 query aliasName columns => exact addDerived (Appends.of_added h).1
  | case4 name args aliasName => exact addFunction (Appends.of_added h).1
  | case5 value path columns aliasName =>
    obtain ⟨hx, -⟩ := Appends.of_added h
    cases hx
    exact leaf rfl (.refl _) rfl
  | case6 kind left right on ihl ihr =>
    -- The left side is registered first, so its leaves come first; a mark changes no key.
    obtain ⟨hx, -⟩ := Appends.of_added h
    obtain ⟨l, c₁, hleft, hx⟩ := outcome_bind_eq_ok.1 hx
    obtain ⟨r, c₂, hright, hx⟩ := outcome_bind_eq_ok.1 hx
    rw [JoinKind.nullableSides_eq] at hx
    rw [Source.leaves_join]
    exact marked ((ihl hleft).append (Appends.register left hleft).1 (ihr hright)) hx

/-- A name finds the first leaf of the whole `FROM` clause that goes by it. -/
theorem registerAll (ss : List Source)
    (h : (ss.forM fun s => discard (s.register (Nested.within k))).outcome env c = (.ok (), c')) :
    FindsFirst env (ss.flatMap (·.leaves false)) c c' := by
  induction ss generalizing c with
  | nil =>
    cases h
    exact nil _
  | cons s ss ih =>
    obtain ⟨_, c₁, hs, h⟩ := outcome_bind_eq_ok.1 h
    obtain ⟨range, hs, -⟩ := outcome_map_eq_ok.1 hs
    exact (register s hs).append (Appends.register s hs).1 (ih h)

/-- In a scope of its own a `FROM` clause has no names but those of its leaves. -/
theorem index?_registerAll {ss : List Source}
    (h : (ss.forM fun s => discard (s.register (Nested.within k))).outcome env c.pushScope =
      (.ok (), c₁))
    (name : String) :
    c₁.scopes.innermost.index? name =
      (ss.flatMap (·.leaves false)).findIdx? (·.goesBy env c name) := by
  have hfound := registerAll ss h name
  have hkey : c.pushScope.scopes.innermost.index? name = none := rfl
  have hsame : Leaf.goesBy env c.pushScope name = Leaf.goesBy env c name := rfl
  rw [hkey, hsame] at hfound
  simpa [Context.pushScope, ScopeStack.entries] using hfound

end FindsFirst

end Analysis

open Analysis

theorem ScopeStack.owner?_load (catalog : Catalog) (qualifier name : String) (stack : ScopeStack) :
    (stack.load catalog).owner? ⟨none, some qualifier, name⟩ =
      stack.innermost.index? qualifier := by
  cases stack <;> rfl

/-- Every leaf has an alias, and no two of the aliases fold to the same text. -/
structure DistinctAliases (ls : List Leaf) : Prop where
  explicit : ∀ l ∈ ls, l.source.alias?.isSome = true
  nodup : (ls.map fun l => l.source.alias?.map Text.fold).Nodup

/-- The alias of one leaf is no other leaf's alias. -/
private theorem DistinctAliases.goesBy_eq {ls : List Leaf} (h : DistinctAliases ls) (env : Env)
    (c : Context) {i j : Nat}
    {l l' : Leaf} {a : String} (hl : ls[j]? = some l) (ha : l.source.alias? = some a)
    (hl' : ls[i]? = some l') (hij : i ≠ j) : l'.goesBy env c a = l'.hasOwnName env c a := by
  obtain ⟨b, hb⟩ := Option.isSome_iff_exists.1 (h.explicit l' (List.mem_of_getElem? hl'))
  have hne : Text.same b a = false := by
    refine Bool.eq_false_iff.2 fun he => hij ?_
    obtain ⟨hi, -⟩ := List.getElem?_eq_some_iff.1 hl'
    refine (List.getElem?_inj (by rwa [List.length_map]) h.nodup).1 ?_
    rw [List.getElem?_map, List.getElem?_map, hl, hl', Option.map_some, Option.map_some, hb, ha,
      Option.map_some, Option.map_some, Text.same_iff.1 he]
  rw [Leaf.goesBy, hb, Option.any_some, hne, Bool.false_or]

/-- The leaf with an alias is the first one that goes by it, unless one before it has the
alias for a name of its own. -/
theorem DistinctAliases.findIdx?_eq_iff {ls : List Leaf} (h : DistinctAliases ls)
    (env : Env) (c : Context)
    {j : Nat} {l : Leaf} {a : String} (hl : ls[j]? = some l) (ha : l.source.alias? = some a) :
    ls.findIdx? (·.goesBy env c a) = some j ↔
    ∀ before ∈ ls.take j, before.hasOwnName env c a = false := by
  -- Any other leaf goes by the alias only for a name of its own.
  have hown {m : Nat} (hm : m < ls.length) (hmj : m ≠ j) :
      ls[m].goesBy env c a = ls[m].hasOwnName env c a :=
    h.goesBy_eq env c hl ha (List.getElem?_eq_getElem hm) hmj
  obtain ⟨hj, rfl⟩ := List.getElem?_eq_some_iff.1 hl
  rw [List.findIdx?_eq_some_iff_getElem]
  constructor
  · rintro ⟨_, -, hbefore⟩ before hmem
    obtain ⟨m, hm, rfl⟩ := List.mem_take_iff_getElem.1 hmem
    have hmj : m < j := by omega
    rw [← hown (by omega) (Nat.ne_of_lt hmj)]
    exact Bool.eq_false_iff.2 (hbefore m hmj)
  · intro hall
    refine ⟨hj, Leaf.goesBy_alias ha, fun m hmj => ?_⟩
    have hmem : ls[m] ∈ ls.take j := List.mem_take_iff_getElem.2 ⟨m, by omega, rfl⟩
    rw [hown (by omega) (Nat.ne_of_lt hmj), hall _ hmem]
    exact Bool.false_ne_true

/-- In the scope of a `FROM` clause whose sources have distinct aliases, however many columns have
been looked up there, every column behind an alias is found, and read through the entry of the first
source that goes by the alias. That is the source with the alias, unless a source before it has the
alias for a name of its own. -/
theorem alias_reads_first_source {env : Env} {k j : Nat} {c c₁ : Context} {ss : List Source}
    {l : Leaf} {a : String}
    (hs : (ss.forM fun s => discard (s.register (Nested.within k))).outcome env c.pushScope =
      (.ok (), c₁))
    (hd : DistinctAliases (ss.flatMap (·.leaves false)))
    (hl : (ss.flatMap (·.leaves false))[j]? = some l) (ha : l.source.alias? = some a) :
    ∃ i l' e, (ss.flatMap (·.leaves false)).findIdx? (·.goesBy env c a) = some i ∧
      (ss.flatMap (·.leaves false))[i]? = some l' ∧ c₁.scopes.entries[i]? = some e ∧
      l'.ShownBy env c.pushScope e ∧
      (∀ stack name, ScopeStack.Loaded env.catalog c₁.scopes stack →
        (ScopeStack.lookup env.catalog ⟨none, some a, name⟩ stack).1 =
          .found ((e.load env.catalog).project name)) ∧
      (i = j ↔
        ∀ before ∈ (ss.flatMap (·.leaves false)).take j, before.hasOwnName env c a = false) := by
  have hsome : ((ss.flatMap (·.leaves false)).findIdx? (·.goesBy env c a)).isSome = true := by
    rw [List.findIdx?_isSome, List.any_eq_true]
    exact ⟨l, List.mem_of_getElem? hl, Leaf.goesBy_alias ha⟩
  obtain ⟨i, hi⟩ := Option.isSome_iff_exists.1 hsome
  obtain ⟨hlen, -, -⟩ := List.findIdx?_eq_some_iff_getElem.1 hi
  obtain ⟨e, he, hshown⟩ := Appends.exists_shownBy hs (List.getElem?_eq_getElem hlen)
  refine ⟨i, _, e, hi, List.getElem?_eq_getElem hlen, he, hshown, fun stack name hstack => ?_, ?_⟩
  · refine ScopeStack.lookup_of_owner (k := i) ?_ ?_
    · rw [hstack.load_eq, ScopeStack.owner?_load, FindsFirst.index?_registerAll hs, hi]
    · rw [hstack.load_eq, ScopeStack.entries_load, List.getElem?_map, he]
      rfl
  · have hfirst := hd.findIdx?_eq_iff env c hl ha
    rwa [hi, Option.some_inj] at hfirst

/-- `FROM dbo.b AS a, dbo.a AS b`. -/
def crossedAliases : List Source :=
  [.named ⟨none, some "dbo", "b"⟩ (some "a"), .named ⟨none, some "dbo", "a"⟩ (some "b")]

/-- What both tables come to in a scope of their own, where no object is known. -/
def crossedRun : Except AnalysisError Unit × Context :=
  (crossedAliases.forM fun s => discard (s.register (Nested.within 0))).outcome
    ⟨.builtinOnly {}, {}⟩
    ({} : Context).pushScope

private theorem distinctAliases_crossedAliases :
    DistinctAliases (crossedAliases.flatMap (·.leaves false)) :=
  ⟨by decide, by decide⟩

/-- The alias `a` reads the table that it is given to, although the one behind it is called `a`. -/
theorem alias_reads_first_source_crossed :
    ∃ c₁ e, crossedRun = (.ok (), c₁) ∧ DistinctAliases (crossedAliases.flatMap (·.leaves false)) ∧
      c₁.scopes.entries[0]? = some e ∧
      ∀ name, (ScopeStack.lookup (.builtinOnly {}) ⟨none, some "a", name⟩ c₁.scopes).1 =
        .found ((e.load (.builtinOnly {})).project name) := by
  have hs : crossedRun = (.ok (), crossedRun.2) := by rfl
  obtain ⟨i, l, e, -, -, he, -, hlookup, hfirst⟩ :=
    alias_reads_first_source (j := 0) (a := "a") hs distinctAliases_crossedAliases rfl rfl
  obtain rfl : i = 0 := hfirst.2 fun before hbef => absurd hbef List.not_mem_nil
  exact ⟨_, e, hs, distinctAliases_crossedAliases, he, fun name => hlookup _ name (.refl _)⟩

/-- The alias `b` does not read the table that it is given to, since the
one before it is called `b`. -/
theorem alias_passed_over_crossed :
    ∃ c₁ e column, crossedRun = (.ok (), c₁) ∧
      DistinctAliases (crossedAliases.flatMap (·.leaves false)) ∧
      (crossedAliases.flatMap (·.leaves false))[1]?.bind (·.source.alias?) = some "b" ∧
      c₁.scopes.entries[1]? = some e ∧
      (ScopeStack.lookup (.builtinOnly {}) ⟨none, some "b", "x"⟩ c₁.scopes).1 = .found column ∧
      column.aliasTable = some "a" ∧
      ((e.load (.builtinOnly {})).project "x").aliasTable = some "b" :=
  ⟨_, _, _, rfl, distinctAliases_crossedAliases, rfl, rfl, rfl, rfl, rfl⟩

end ResultShape
