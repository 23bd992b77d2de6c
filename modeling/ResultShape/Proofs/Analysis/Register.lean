import ResultShape.Proofs.Analysis.CteColumns
import ResultShape.Proofs.Analysis.Loading
import ResultShape.Proofs.Scope.Origin
/-! Registration: each leaf of a tree of joins becomes one entry of the innermost
scope, from left to right, and the entries whose rows an outer join may leave out are
marked, whatever runs in between. -/
namespace ResultShape

/-- The rows of the left side may be missing from a joined row. -/
def JoinKind.leftMayMiss (kind : JoinKind) : Bool := kind = .right || kind = .full

/-- The rows of the right side may be missing from a joined row. -/
def JoinKind.rightMayMiss (kind : JoinKind) : Bool :=
  kind = .left || kind = .outerApply || kind = .full

theorem JoinKind.nullableSides_eq (kind : JoinKind) :
    kind.nullableSides = (kind.leftMayMiss, kind.rightMayMiss) := by
  cases kind <;> rfl

/-- A source that is no join, and whether its rows may be missing for one of the joins around it. -/
structure Leaf where
  source : Source
  mayMiss : Bool

/-- A leaf on one side of a join. -/
def Leaf.under (mayMiss : Bool) (l : Leaf) : Leaf := { l with mayMiss := mayMiss || l.mayMiss }

namespace Source

/-- The leaves of a source that stands inside joins, from left to right. -/
def leaves (mayMiss : Bool) : Source → List Leaf
  | .join kind left right _ =>
    left.leaves (mayMiss || kind.leftMayMiss) ++ right.leaves (mayMiss || kind.rightMayMiss)
  | source => [⟨source, mayMiss⟩]

private theorem leaves_eq_map (mayMiss : Bool) (s : Source) :
    s.leaves mayMiss = (s.leaves false).map (.under mayMiss) := by
  induction s using Source.register.induct generalizing mayMiss with
  | case6 kind left right on ihl ihr =>
    have hunder (a b : Bool) : Leaf.under a ∘ Leaf.under b = Leaf.under (a || b) := by
      funext l
      simp only [Function.comp_apply, Leaf.under, Bool.or_assoc]
    simp only [leaves, Bool.false_or]
    rw [ihl, ihr, ihl kind.leftMayMiss, ihr kind.rightMayMiss, List.map_append, List.map_map,
      List.map_map, hunder, hunder]
  | _ => simp [leaves, Leaf.under]

theorem leaves_join (kind : JoinKind) (left right : Source) (on : Option Expr) :
    (Source.join kind left right on).leaves false =
      (left.leaves false).map (.under kind.leftMayMiss) ++
        (right.leaves false).map (.under kind.rightMayMiss) := by
  rw [leaves, Bool.false_or, Bool.false_or, leaves_eq_map kind.leftMayMiss,
    leaves_eq_map kind.rightMayMiss]

/-- The name by which the columns of a leaf are qualified. -/
def visibleName : Source → String
  | .named name aliasName => aliasName.getD name.name
  | .var name aliasName => aliasName.getD name
  | .derived _ aliasName _ => aliasName
  | .function name _ aliasName => aliasName.getD name.name
  | .openJson _ _ _ aliasName => aliasName.getD "OPENJSON"
  | .join .. => ""

end Source

/-- The entry is that of the leaf, and it is marked if rows of the leaf may be missing. A derived
table shows what its query came to, and a CTE what CTEs of its name may show in the context. -/
structure Leaf.ShownBy (env : Env) (c : Context) (l : Leaf) (e : Entry) : Prop where
  forceNullable : e.forceNullable = l.mayMiss
  visibleName : Text.same e.visibleName l.source.visibleName = true
  derived : ∀ q aliasName renames, l.source = .derived q aliasName renames →
    ∃ k c₀ columns, c.ShowsAs env c₀ ∧ CameTo env q k q.body (c₀.inside q) columns ∧
      e.columns = .known (.ofColumns columns renames)
  cte : ∀ name aliasName cte, l.source = .named name aliasName → name.isLocal = false →
    c.cteNamed? name = some cte →
    ∃ m, e.columns = .known m ∧ c.CteShows env (Text.fold cte.name) m

/-- An entry that is marked, or left as it is. -/
def Entry.markIf (mayMiss : Bool) (e : Entry) : Entry := if mayMiss then e.markNullable else e

namespace Leaf.ShownBy

variable {env : Env} {c c₁ : Context} {l : Leaf} {e e' : Entry}

/-- Columns that are known are not looked up any more. -/
private theorem loaded (h : l.ShownBy env c e) (he : Entry.Loaded env.catalog e e') :
    l.ShownBy env c e' := by
  have hknown : ∀ m, e.columns = .known m → e'.columns = .known m := by
    intro m hm
    rcases he with rfl | rfl
    · exact hm
    · simp only [Entry.load, hm, EntryColumns.load]
  refine ⟨he.forceNullable_eq.trans h.forceNullable, he.visibleName_eq ▸ h.visibleName, ?_, ?_⟩
  · intro q aliasName renames hl
    obtain ⟨k, c₀, columns, hs, hq, hm⟩ := h.derived q aliasName renames hl
    exact ⟨k, c₀, columns, hs, hq, hknown _ hm⟩
  · intro name aliasName cte hl hn hc
    obtain ⟨m, hm, hs⟩ := h.cte name aliasName cte hl hn hc
    exact ⟨m, hknown m hm, hs⟩

private theorem under (h : l.ShownBy env c e) (mayMiss : Bool) :
    (l.under mayMiss).ShownBy env c (e.markIf mayMiss) := by
  cases mayMiss with
  | false => exact h
  | true => exact ⟨rfl, h.visibleName, h.derived, h.cte⟩

/-- What may be shown in a later context may be shown in an earlier one. -/
private theorem earlier (h : l.ShownBy env c₁ e) (hc : c.ShowsAs env c₁) : l.ShownBy env c e := by
  refine ⟨h.forceNullable, h.visibleName, ?_, ?_⟩
  · intro q aliasName renames hl
    obtain ⟨k, c₀, columns, hs, hq, hm⟩ := h.derived q aliasName renames hl
    exact ⟨k, c₀, columns, hc.trans hs, hq, hm⟩
  · intro name aliasName cte hl hn hname
    have hname₁ : c₁.cteNamed? name = some cte := by
      simpa only [Context.cteNamed?, Context.findCte?, hc.cteFrames] using hname
    obtain ⟨m, hm, hs⟩ := h.cte name aliasName cte hl hn hname₁
    exact ⟨m, hm, hc.cteShows hs⟩

end Leaf.ShownBy

namespace ScopeStack

theorem entries_add (stack : ScopeStack) (e : Entry) (names : List String) :
    (stack.add e names).entries = stack.entries ++ [e] := by
  cases stack <;> rfl

theorem size_eq_length_entries (stack : ScopeStack) : stack.size = stack.entries.length := by
  cases stack <;> rfl

theorem Loaded.entries {catalog : Catalog} {stack stack' : ScopeStack}
    (h : Loaded catalog stack stack') :
    List.Forall₂ (Entry.Loaded catalog) stack.entries stack'.entries := by
  cases h with
  | nil => exact .nil
  | cons hs _ => exact hs.entries

private theorem mapIdx_eq_map {f : Nat → Entry → Entry} {g : Entry → Entry} {es : List Entry}
    (h : ∀ i e, i < es.length → f i e = g e) : es.mapIdx f = es.map g :=
  List.ext_getElem (by simp) fun i hi _ => by simpa using h i _ (by simpa using hi)

/-- Marking the entries of a range leaves those before and behind it alone. -/
theorem entries_markNullable {stack : ScopeStack} {before range behind : List Entry}
    (h : stack.entries = before ++ range ++ behind) :
    (stack.markNullable before.length (before.length + range.length)).entries =
      before ++ range.map .markNullable ++ behind := by
  let f (i : Nat) (e : Entry) : Entry :=
    if before.length ≤ i ∧ i < before.length + range.length then e.markNullable else e
  have hmap : (stack.markNullable before.length (before.length + range.length)).entries =
      stack.entries.mapIdx f := by
    cases stack <;> rfl
  have hbefore : before.mapIdx f = before.map id := mapIdx_eq_map fun i e hi => if_neg (by omega)
  have hrange : range.mapIdx (fun i => f (i + before.length)) = range.map .markNullable :=
    mapIdx_eq_map fun i e hi => if_pos (by omega)
  have hbehind : behind.mapIdx (fun i => f (i + (before ++ range).length)) = behind.map id :=
    mapIdx_eq_map fun i e hi => if_neg (by rw [List.length_append]; omega)
  rw [hmap, h, List.mapIdx_append, List.mapIdx_append, hbefore, hrange, hbehind,
    List.map_id, List.map_id]

private theorem entries_markIf {stack : ScopeStack} {before range behind : List Entry}
    (mayMiss : Bool) (h : stack.entries = before ++ range ++ behind) :
    (if mayMiss then stack.markNullable before.length
      (before.length + range.length) else stack).entries =
      before ++ range.map (.markIf mayMiss) ++ behind := by
  cases mayMiss with
  | false =>
    have hid : Entry.markIf false = id := rfl
    rw [hid, List.map_id]
    exact h
  | true => exact entries_markNullable h

end ScopeStack

namespace Analysis

/-- The entries that were there are as before, up to columns that are loaded now, and behind them
there is one more for each leaf. -/
structure Appends (env : Env) (ls : List Leaf) (c c' : Context) : Prop where
  showsAs : c.ShowsAs env c'
  entries : ∃ old new, c'.scopes.entries = old ++ new ∧
    List.Forall₂ (Entry.Loaded env.catalog) c.scopes.entries old ∧
    List.Forall₂ (Leaf.ShownBy env c) ls new

namespace Appends

variable {env : Env} {k : Nat} {ls ls₁ ls₂ : List Leaf} {c c₁ c₂ c' : Context}

theorem length_entries (h : Appends env ls c c') :
    c'.scopes.entries.length = c.scopes.entries.length + ls.length := by
  obtain ⟨old, new, hc, hold, hnew⟩ := h.entries
  rw [hc, List.length_append, hold.length_eq, hnew.length_eq]

theorem nil (c : Context) : Appends env [] c c :=
  ⟨.refl c, c.scopes.entries, [], (List.append_nil _).symm, List.forall₂_same.2 fun e _ =>
    .refl e, .nil⟩

private theorem forall₂_append {α β : Type} {R : α → β → Prop} {as₁ as₂ : List α} {bs : List β}
    (h : List.Forall₂ R (as₁ ++ as₂) bs) :
    ∃ bs₁ bs₂, bs = bs₁ ++ bs₂ ∧ List.Forall₂ R as₁ bs₁ ∧ List.Forall₂ R as₂ bs₂ :=
  ⟨bs.take as₁.length, bs.drop as₁.length, (List.take_append_drop _ _).symm,
    (List.forall₂_take_append bs as₁ as₂ h.flip).flip,
    (List.forall₂_drop_append bs as₁ as₂ h.flip).flip⟩

private theorem shownBy_loaded {es es' : List Entry} (h : List.Forall₂ (Leaf.ShownBy env c) ls es)
    (he : List.Forall₂ (Entry.Loaded env.catalog) es es') :
    List.Forall₂ (Leaf.ShownBy env c) ls es' := by
  induction h generalizing es' with
  | nil =>
    cases he
    exact .nil
  | cons hl _ ih =>
    cases he with
    | cons he hes => exact .cons (hl.loaded he) (ih hes)

private theorem shownBy_under {es : List Entry} (h : List.Forall₂ (Leaf.ShownBy env c) ls es)
    (mayMiss : Bool) :
    List.Forall₂ (Leaf.ShownBy env c) (ls.map (.under mayMiss)) (es.map (.markIf mayMiss)) := by
  rw [List.forall₂_map_left_iff, List.forall₂_map_right_iff]
  exact h.imp fun _ _ hl => hl.under mayMiss

/-- What is registered first is among the entries that were there when the rest is registered. -/
theorem append (h₁ : Appends env ls₁ c c₁) (h₂ : Appends env ls₂ c₁ c₂) :
    Appends env (ls₁ ++ ls₂) c c₂ := by
  obtain ⟨old₁, new₁, hc₁, hold₁, hnew₁⟩ := h₁.entries
  obtain ⟨old₂, new₂, hc₂, hold₂, hnew₂⟩ := h₂.entries
  rw [hc₁] at hold₂
  obtain ⟨old, new, rfl, hold, hnew⟩ := forall₂_append hold₂
  refine ⟨h₁.showsAs.trans h₂.showsAs, old, new ++ new₂, ?_,
    Entry.Loaded.forall₂_trans hold₁ hold, ?_⟩
  · rw [hc₂, List.append_assoc]
  · have hlater : List.Forall₂ (Leaf.ShownBy env c) ls₂ new₂ :=
      hnew₂.imp fun _ _ h => h.earlier h₁.showsAs
    exact List.rel_append (shownBy_loaded hnew₁ hnew) hlater

/-- An entry that is added to the scopes as they are, up to loaded columns, is that of a leaf. -/
private theorem leaf {s : Source} {stack : ScopeStack} {e : Entry} {names : List String}
    (hs : c.ShowsAs env c')
    (hc : c'.scopes = stack.add e names) (hl : ScopeStack.Loaded env.catalog c.scopes stack)
    (he : Leaf.ShownBy env c ⟨s, false⟩ e) : Appends env [⟨s, false⟩] c c' :=
  ⟨hs, stack.entries, [e], by rw [hc, ScopeStack.entries_add], hl.entries, .cons he .nil⟩

/-- A source that is neither a derived table nor a CTE adds an entry without running a query. -/
private theorem plain {s : Source} {e : Entry} {names : List String} (hs : c.ShowsAs env c')
    (hc : c'.scopes = c.scopes.add e names) (hf : e.forceNullable = false)
    (hn : e.visibleName = s.visibleName)
    (hd : ∀ q aliasName renames, s ≠ .derived q aliasName renames)
    (hcte : ∀ name aliasName, s = .named name aliasName →
      name.isLocal = true ∨ c.cteNamed? name = none) :
    Appends env [⟨s, false⟩] c c' := by
  refine leaf hs hc (.refl _)
    ⟨hf, ?_, fun q aliasName renames hl => absurd hl (hd q aliasName renames), ?_⟩
  · rw [hn]
    exact Text.same_refl _
  · intro name aliasName cte hl hlocal hname
    rcases hcte name aliasName hl with h | h
    · rw [h] at hlocal
      cases hlocal
    · rw [h] at hname
      cases hname

private theorem addDerived {q : Query} {aliasName : String} {renames : List String}
    (hs : c.ShowsAs env c')
    (h : (addDerived (Nested.within k) q aliasName renames).outcome env c = (.ok (), c')) :
    Appends env [⟨.derived q aliasName renames, false⟩] c c' := by
  obtain ⟨set, c₁, hq, h⟩ := outcome_bind_eq_ok.1 h
  cases h
  have hl := (Loads.within env k q).1 c
  rw [hq] at hl
  refine leaf hs rfl hl ⟨rfl, Text.same_refl _, fun q' _ renames' hl => ?_, by simp⟩
  cases hl
  obtain ⟨k', hq⟩ := CameTo.exists_of_query hq
  exact ⟨k', c, set.columns, .refl c, hq, rfl⟩

private theorem same_of_cteNamed? {name : Name} {cte : Cte} (h : c.cteNamed? name = some cte) :
    Text.same cte.name name.name = true := by
  unfold Context.cteNamed? at h
  split at h
  · exact Context.same_of_findCte? h
  · cases h

private theorem addNamed {name : Name} {aliasName : Option String} (hs : c.ShowsAs env c')
    (h : (addNamed (Nested.within k) name aliasName).outcome env c = (.ok (), c')) :
    Appends env [⟨.named name aliasName, false⟩] c c' := by
  unfold Analysis.addNamed at h
  split at h
  · rename_i hlocal
    cases h
    refine plain hs rfl rfl rfl (by simp) fun _ _ hl => ?_
    cases hl
    exact .inl hlocal
  · obtain ⟨c₀, c₁, hget, h⟩ := outcome_bind_eq_ok.1 h
    cases hget
    split at h
    · rename_i cte hname
      obtain ⟨m, c₁, hm, h⟩ := outcome_bind_eq_ok.1 h
      cases h
      have hl := Loads.cteColumns env (Nested.within k) cte c
      rw [hm] at hl
      refine leaf hs rfl hl ⟨rfl, ?_, by simp, fun _ _ cte' hl _ hname' => ?_⟩
      · cases aliasName with
        | none => exact same_of_cteNamed? hname
        | some a => exact Text.same_refl a
      · cases hl
        obtain rfl : cte = cte' := Option.some.inj (hname.symm.trans hname')
        exact ⟨m, rfl, cteShows_of_cteColumns_eq_ok hm⟩
    · rename_i hname
      cases h
      refine plain hs rfl rfl rfl (by simp) fun _ _ hl => ?_
      cases hl
      exact .inr hname

private theorem addFunction {name : Name} {args : List Expr} {aliasName : Option String}
    (hs : c.ShowsAs env c') (h : (addFunction name aliasName).outcome env c = (.ok (), c')) :
    Appends env [⟨.function name args aliasName, false⟩] c c' := by
  unfold Analysis.addFunction at h
  split at h
  · cases h
    exact plain hs rfl rfl rfl (by simp) (by simp)
  · cases h
    exact plain hs rfl rfl rfl (by simp) (by simp)

theorem outcome_markSide (mayMiss : Bool) (side : Nat × Nat) :
    (markSide mayMiss side).outcome env c =
      (.ok (), { c with
        scopes := if mayMiss then c.scopes.markNullable side.1 side.2 else c.scopes }) := by
  cases mayMiss <;> rfl

/-- The entries of both sides of a join are where they were registered, so the marks fall
on the leaves they are for. -/
private theorem marked (hl : Appends env ls₁ c c₁) (hr : Appends env ls₂ c₁ c₂)
    (mayMissLeft mayMissRight : Bool) (hm : (do
      markSide mayMissLeft (c.scopes.entries.length, c₁.scopes.entries.length)
      markSide mayMissRight (c₁.scopes.entries.length, c₂.scopes.entries.length)).outcome env c₂ =
        (.ok (), c')) :
    Appends env (ls₁.map (.under mayMissLeft) ++ ls₂.map (.under mayMissRight)) c c' := by
  obtain ⟨old, new, hc₂, hold, hnew⟩ := (hl.append hr).entries
  obtain ⟨newLeft, newRight, rfl, hleft, hright⟩ := forall₂_append hnew
  have hlen := hold.length_eq
  have hlenLeft := hl.length_entries.trans (congrArg₂ (· + ·) hlen hleft.length_eq)
  have hlenRight := hr.length_entries.trans (congrArg₂ (· + ·) hlenLeft hright.length_eq)
  obtain ⟨_, c₃, hm₁, hm₂⟩ := outcome_bind_eq_ok.1 hm
  rw [outcome_markSide, hlen, hlenLeft] at hm₁
  rw [outcome_markSide, hlenLeft, hlenRight] at hm₂
  cases hm₁
  cases hm₂
  refine ⟨(hl.append hr).showsAs.trans (.of_eq rfl rfl rfl), old,
    newLeft.map (.markIf mayMissLeft) ++ newRight.map (.markIf mayMissRight), ?_, hold, ?_⟩
  · rw [← List.append_assoc] at hc₂
    have h₁ := ScopeStack.entries_markIf mayMissLeft hc₂
    rw [← List.append_nil (_ ++ newRight)] at h₁
    have h₂ := ScopeStack.entries_markIf mayMissRight h₁
    simpa only [List.length_append, List.length_map, List.append_nil, List.append_assoc] using h₂
  · exact List.rel_append (shownBy_under hleft mayMissLeft) (shownBy_under hright mayMissRight)

theorem of_added {x : Analysis Unit} {range : Nat × Nat}
    (h : (added x).outcome env c = (.ok range, c')) :
    x.outcome env c = (.ok (), c') ∧
    range = (c.scopes.entries.length, c'.scopes.entries.length) := by
  obtain ⟨c₀, c₁, hget, h⟩ := outcome_bind_eq_ok.1 h
  cases hget
  obtain ⟨_, c₁, hx, h⟩ := outcome_bind_eq_ok.1 h
  cases h
  exact ⟨hx, by rw [ScopeStack.size_eq_length_entries, ScopeStack.size_eq_length_entries]⟩

private theorem showsAs_of_register {s : Source} {range : Nat × Nat}
    (h : (s.register (Nested.within k)).outcome env c = (.ok range, c')) : c.ShowsAs env c' := by
  have hs := ShowsNoMore.register env k s c
  rwa [h] at hs

/-- A source that is registered appends the entries of its leaves, and gives their positions. -/
theorem register (s : Source) {range : Nat × Nat}
    (h : (s.register (Nested.within k)).outcome env c = (.ok range, c')) :
    Appends env (s.leaves false) c c' ∧
    range = (c.scopes.entries.length, c'.scopes.entries.length) := by
  induction s using Source.register.induct generalizing c c' range with
  | case1 name aliasName =>
    obtain ⟨hx, hr⟩ := of_added h
    exact ⟨addNamed (showsAs_of_register h) hx, hr⟩
  | case2 name aliasName =>
    obtain ⟨hx, hr⟩ := of_added h
    cases hx
    exact ⟨plain (.of_eq rfl rfl rfl) rfl rfl rfl (by simp) (by simp), hr⟩
  | case3 query aliasName columns =>
    obtain ⟨hx, hr⟩ := of_added h
    exact ⟨addDerived (showsAs_of_register h) hx, hr⟩
  | case4 name args aliasName =>
    obtain ⟨hx, hr⟩ := of_added h
    exact ⟨addFunction (showsAs_of_register h) hx, hr⟩
  | case5 value path columns aliasName =>
    obtain ⟨hx, hr⟩ := of_added h
    cases hx
    exact ⟨plain (.of_eq rfl rfl rfl) rfl rfl rfl (by simp) (by simp), hr⟩
  | case6 kind left right on ihl ihr =>
    obtain ⟨hx, hr⟩ := of_added h
    obtain ⟨l, c₁, hleft, hx⟩ := outcome_bind_eq_ok.1 hx
    obtain ⟨r, c₂, hright, hx⟩ := outcome_bind_eq_ok.1 hx
    obtain ⟨hl, rfl⟩ := ihl hleft
    obtain ⟨hr', rfl⟩ := ihr hright
    rw [JoinKind.nullableSides_eq] at hx
    rw [Source.leaves_join]
    exact ⟨marked hl hr' _ _ hx, hr⟩

/-- The sources of a `FROM` clause append the entries of all their leaves. -/
theorem registerAll (ss : List Source)
    (h : (ss.forM fun s => discard (s.register (Nested.within k))).outcome env c = (.ok (), c')) :
    Appends env (ss.flatMap (·.leaves false)) c c' := by
  induction ss generalizing c with
  | nil =>
    cases h
    exact nil _
  | cons s ss ih =>
    obtain ⟨_, c₁, hs, h⟩ := outcome_bind_eq_ok.1 h
    obtain ⟨range, hs, -⟩ := outcome_map_eq_ok.1 hs
    exact (register s hs).1.append (ih h)

/-- The entries that the sources of a block leave in its scope are those of the leaves. -/
theorem exists_shownBy {j : Nat} {ss : List Source} {l : Leaf}
    (hs : (ss.forM fun s => discard (s.register (Nested.within k))).outcome env c.pushScope =
      (.ok (), c₁))
    (hl : (ss.flatMap (·.leaves false))[j]? = some l) :
    ∃ e, c₁.scopes.entries[j]? = some e ∧ l.ShownBy env c.pushScope e := by
  obtain ⟨old, new, hc, hold, hnew⟩ := (registerAll ss hs).entries
  cases hold
  obtain ⟨hj, rfl⟩ := List.getElem?_eq_some_iff.1 hl
  have hj' : j < new.length := hnew.length_eq ▸ hj
  refine ⟨new[j], ?_, hnew.get hj hj'⟩
  rw [hc, List.nil_append]
  exact List.getElem?_eq_getElem hj'

end Appends

end Analysis

end ResultShape
