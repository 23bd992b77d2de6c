import ResultShape.Proofs.Analysis.Register
/-! Entries of leaves: what is true of the entry that a single source leaves in the scope is true of
its entry when the source is one of many, inside joins and behind others. -/
namespace ResultShape

/-- The entry at a position is marked if the position is in the range. -/
theorem ScopeStack.getElem?_markNullable (stack : ScopeStack) (first last i : Nat) :
    (stack.markNullable first last).entries[i]? =
      stack.entries[i]?.map (.markIf (decide (first ≤ i ∧ i < last))) := by
  cases stack with
  | nil => rfl
  | cons s rest =>
    simp only [markNullable, entries, List.head?_cons, Option.elim_some, Scope.markNullable,
      List.getElem?_mapIdx]
    congr 1
    funext e
    simp only [Entry.markIf, decide_eq_true_eq]

theorem Source.leaves_of_not_join {s : Source}
    (h : ∀ kind left right on, s ≠ .join kind left right on) :
    s.leaves false = [⟨s, false⟩] := by
  cases s with
  | join kind left right on => exact absurd rfl (h kind left right on)
  | _ => rfl

namespace Analysis

/-- Behind the entries that were there, the entry of each leaf has a property. -/
def ShowsEach (P : Source → Entry → Prop) (ls : List Leaf) (c c' : Context) : Prop :=
  ∀ i l, ls[i]? = some l →
    ∃ e, c'.scopes.entries[c.scopes.entries.length + i]? = some e ∧ P l.source e

/-- A property of entries that holds of the entry a single source adds, and that neither
looking up columns nor marking takes away. The context is the one in which the source is
registered, or an earlier one. -/
structure HoldsOfLeaves (env : Env) (k : Nat) (P : Context → Source → Entry → Prop) : Prop where
  leaf : ∀ {c c' : Context} {s : Source} {range : Nat × Nat},
    (∀ kind left right on, s ≠ .join kind left right on) →
    (s.register (Nested.within k)).outcome env c = (.ok range, c') →
    ∃ e, c'.scopes.entries[c.scopes.entries.length]? = some e ∧ P c s e
  loaded : ∀ {c : Context} {s : Source} {e e' : Entry}, P c s e →
    Entry.Loaded env.catalog e e' → P c s e'
  markIf : ∀ {c : Context} {s : Source} {e : Entry}, P c s e → ∀ mayMiss, P c s (e.markIf mayMiss)
  earlier : ∀ {c c₁ : Context} {s s' : Source} {e : Entry} {range : Nat × Nat},
    (s'.register (Nested.within k)).outcome env c = (.ok range, c₁) → P c₁ s e → P c s e

variable {env : Env} {k : Nat} {ls ls₁ ls₂ : List Leaf} {c c₁ c₂ c' : Context}

/-- An entry stays where it is while more entries are appended. -/
theorem Appends.exists_loaded (ha : Appends env ls c c') {i : Nat} {e : Entry}
    (hi : c.scopes.entries[i]? = some e) :
    ∃ e', c'.scopes.entries[i]? = some e' ∧ Entry.Loaded env.catalog e e' := by
  obtain ⟨old, new, hc, hold, -⟩ := ha.entries
  obtain ⟨hlt, rfl⟩ := List.getElem?_eq_some_iff.1 hi
  have hlt' : i < old.length := hold.length_eq ▸ hlt
  refine ⟨old[i], ?_, hold.get hlt hlt'⟩
  rw [hc, List.getElem?_append_left hlt', List.getElem?_eq_getElem hlt']

namespace HoldsOfLeaves

variable {P : Context → Source → Entry → Prop}

/-- What is registered behind the first leaves is registered in a later context. -/
private theorem append (h : HoldsOfLeaves env k P) (h₁ : ShowsEach (P c) ls₁ c c₁)
    (ha₁ : Appends env ls₁ c c₁)
    (h₂ : ShowsEach (P c₁) ls₂ c₁ c₂) (ha₂ : Appends env ls₂ c₁ c₂)
    (hearlier : ∀ s e, P c₁ s e → P c s e) :
    ShowsEach (P c) (ls₁ ++ ls₂) c c₂ := by
  intro i l hl
  by_cases hi : i < ls₁.length
  · rw [List.getElem?_append_left hi] at hl
    obtain ⟨e, he, hp⟩ := h₁ i l hl
    obtain ⟨e', he', hloaded⟩ := ha₂.exists_loaded he
    exact ⟨e', he', h.loaded hp hloaded⟩
  · rw [List.getElem?_append_right (by omega)] at hl
    obtain ⟨e, he, hp⟩ := h₂ _ l hl
    refine ⟨e, ?_, hearlier _ _ hp⟩
    rw [← he, ha₁.length_entries]
    congr 1
    omega

private theorem marked (h : HoldsOfLeaves env k P) (hs : ShowsEach (P c) ls c c₁) {mayMiss : Bool}
    {side : Nat × Nat}
    (hm : (markSide mayMiss side).outcome env c₁ = (.ok (), c')) : ShowsEach (P c) ls c c' := by
  intro i l hl
  obtain ⟨e, he, hp⟩ := hs i l hl
  rw [Appends.outcome_markSide] at hm
  cases hm
  cases mayMiss with
  | false => exact ⟨e, he, hp⟩
  | true =>
    generalize c.scopes.entries.length + i = position at he ⊢
    refine ⟨e.markIf (decide (side.1 ≤ position ∧ position < side.2)), ?_, h.markIf hp _⟩
    rw [if_pos rfl, ScopeStack.getElem?_markNullable, he]
    rfl

private theorem single (h : HoldsOfLeaves env k P) {s : Source} {range : Nat × Nat}
    (hs : ∀ kind left right on, s ≠ .join kind left right on)
    (hr : (s.register (Nested.within k)).outcome env c = (.ok range, c')) :
    ShowsEach (P c) (s.leaves false) c c' := by
  rw [Source.leaves_of_not_join hs]
  intro i l hl
  cases i with
  | zero =>
    cases hl
    exact h.leaf hs hr
  | succ i => cases hl

/-- The leaves of a source have entries with the property. -/
theorem register (h : HoldsOfLeaves env k P) (s : Source) {range : Nat × Nat}
    (hr : (s.register (Nested.within k)).outcome env c = (.ok range, c')) :
    ShowsEach (P c) (s.leaves false) c c' := by
  induction s using Source.register.induct generalizing c c' range with
  | case1 | case2 | case3 | case4 | case5 =>
    refine h.single ?_ hr
    intro kind left right on hjoin
    cases hjoin
  | case6 kind left right on ihl ihr =>
    obtain ⟨hx, -⟩ := Appends.of_added hr
    obtain ⟨l, c₁, hleft, hx⟩ := outcome_bind_eq_ok.1 hx
    obtain ⟨r, c₂, hright, hx⟩ := outcome_bind_eq_ok.1 hx
    obtain ⟨_, c₃, hml, hmr⟩ := outcome_bind_eq_ok.1 hx
    have hboth :=
      h.append (ihl hleft) (Appends.register left hleft).1 (ihr hright)
        (Appends.register right hright).1
      fun _ _ hp => h.earlier hleft hp
    have hsources : ((Source.join kind left right on).leaves false).map (·.source) =
        (left.leaves false ++ right.leaves false).map (·.source) := by
      rw [Source.leaves_join, List.map_append, List.map_append, List.map_map, List.map_map]
      rfl
    intro i l hl
    -- The join marks leaves and leaves their sources alone.
    have hsource :
        ((left.leaves false ++ right.leaves false).map (·.source))[i]? = some l.source := by
      rw [← hsources, List.getElem?_map, hl]
      rfl
    rw [List.getElem?_map, Option.map_eq_some_iff] at hsource
    obtain ⟨l', hl', hsource⟩ := hsource
    obtain ⟨e, he, hp⟩ := h.marked (h.marked hboth hml) hmr i l' hl'
    exact ⟨e, he, hsource ▸ hp⟩

/-- The leaves of a whole `FROM` clause have entries with the property. -/
theorem registerAll (h : HoldsOfLeaves env k P) (ss : List Source)
    (hr : (ss.forM fun s => discard (s.register (Nested.within k))).outcome env c = (.ok (), c')) :
    ShowsEach (P c) (ss.flatMap (·.leaves false)) c c' := by
  induction ss generalizing c with
  | nil =>
    intro i l hl
    cases hl
  | cons s ss ih =>
    obtain ⟨_, c₁, hs, hr⟩ := outcome_bind_eq_ok.1 hr
    obtain ⟨range, hs, -⟩ := outcome_map_eq_ok.1 hs
    exact h.append (h.register s hs) (Appends.register s hs).1 (ih hr) (Appends.registerAll ss hr)
      fun _ _ hp => h.earlier hs hp

end HoldsOfLeaves

end Analysis

end ResultShape
