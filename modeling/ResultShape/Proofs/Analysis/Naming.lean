import Mathlib.Data.List.Nodup
import Mathlib.Data.List.Perm.Subperm
import ResultShape.Analysis.Naming
import ResultShape.Proofs.Text.Fold
/-! Assigned names: however the names that columns ask for collide, and collide with names made up
for others, each column gets one that no column before it has. -/
namespace ResultShape

namespace ResultColumn

variable {used : List String} {base : String}

theorem fold_numbered_injective (base : String) :
    Function.Injective fun i : Nat => Text.fold (base ++ toString (i + 2)) := by
  intro i j h
  simp only [Text.fold_append, Text.fold_toString] at h
  have hlist := congrArg String.toList h
  simp only [String.toList_append, List.append_cancel_left_eq, Nat.toString_eq_repr,
    Nat.toList_repr] at hlist
  have hn := congrArg (fun digits => Nat.ofDigitChars 10 digits 0) hlist
  simp only [Nat.ofDigitChars_ten_toDigits] at hn
  omega

theorem isFree_iff {name : String} : isFree used name = true ↔ Text.fold name ∉ used := by
  simp [isFree]

/-- There is one more number to try than there are used names. -/
theorem isFree_numbered (used : List String) (base : String) :
    isFree used (numbered used base) = true := by
  let tried := (List.range (used.length + 1)).map fun i => base ++ toString (i + 2)
  unfold numbered
  cases hf : tried.find? (isFree used) with
  | some name =>
    exact List.find?_some hf
  | none =>
    have hall : ∀ name ∈ tried, Text.fold name ∈ used := by
      intro name hm
      have := List.find?_eq_none.1 hf name hm
      rwa [isFree_iff, not_not] at this
    have hnodup : (tried.map Text.fold).Nodup := by
      rw [List.map_map]
      exact List.nodup_range.map (fold_numbered_injective base)
    have hsubset : tried.map Text.fold ⊆ used := by
      intro key hk
      obtain ⟨name, hm, rfl⟩ := List.mem_map.1 hk
      exact hall name hm
    have hlength := (hnodup.subperm hsubset).length_le
    simp only [List.length_map, List.length_range, tried] at hlength
    omega

theorem isFree_freeName (used : List String) (c : ResultColumn) (base : String) :
    isFree used (c.freeName used base) = true := by
  unfold freeName
  split
  · assumption
  · dsimp only
    cases hf : List.find? (isFree used) _ with
    | some name => exact List.find?_some hf
    | none => exact isFree_numbered used base

/-- The columns that are named in turn have names apart from one another
and from those used before. -/
theorem nodup_assignFrom (position : Nat) (used : List String) (cs : List ResultColumn) :
    ((assignFrom position used cs).map fun c => Text.fold c.name).Nodup ∧
      ∀ key ∈ (assignFrom position used cs).map fun c => Text.fold c.name, key ∉ used := by
  induction cs generalizing position used with
  | nil => exact ⟨List.nodup_nil, fun key hk => absurd hk List.not_mem_nil⟩
  | cons c cs ih =>
    have hfree := isFree_iff.1 (isFree_freeName used c (c.candidate position))
    obtain ⟨hnodup, hapart⟩ :=
      ih (position + 1) (Text.fold (c.freeName used (c.candidate position)) :: used)
    simp only [assignFrom, List.map_cons, List.nodup_cons, List.mem_cons, forall_eq_or_imp]
    refine ⟨⟨fun hm => ?_, hnodup⟩, hfree, fun key hk hu => ?_⟩
    · exact hapart _ hm List.mem_cons_self
    · exact hapart key hk (List.mem_cons_of_mem _ hu)

/-- No two columns have names that fold to the same text. -/
theorem nodup_assignNames (cs : List ResultColumn) :
    ((assignNames cs).map fun c => Text.fold c.name).Nodup :=
  (nodup_assignFrom 0 [] cs).1

/-- The folded names of the columns before a position. -/
def takenBefore (i : Nat) (cs : List ResultColumn) : List String :=
  (((assignNames cs).take i).map fun c => Text.fold c.name).reverse

private theorem getElem?_assignFrom (position : Nat) (used : List String)
    (cs : List ResultColumn) (i : Nat) : (assignFrom position used cs)[i]? = cs[i]?.map fun c =>
      let before := ((assignFrom position used cs).take i).map fun d => Text.fold d.name
      { c with name := c.freeName (before.reverse ++ used) (c.candidate (position + i)) } := by
  induction cs generalizing position used i with
  | nil => rfl
  | cons c cs ih =>
    cases i with
    | zero => rfl
    | succ i =>
      have hposition : position + 1 + i = position + (i + 1) := by omega
      rw [assignFrom, List.getElem?_cons_succ, ih, List.getElem?_cons_succ, hposition]
      simp only [List.take_succ_cons, List.map_cons, List.reverse_cons, List.append_assoc,
        List.singleton_append]

/-- Each column is named by what it asks for and by the names of the columns before it. -/
theorem getElem?_assignNames (cs : List ResultColumn) (i : Nat) :
    (assignNames cs)[i]? = cs[i]?.map fun c =>
      { c with name := c.freeName (takenBefore i cs) (c.candidate i) } := by
  simpa only [assignNames, takenBefore, List.append_nil, Nat.zero_add] using
    getElem?_assignFrom 0 [] cs i

theorem isFree_takenBefore_iff {cs : List ResultColumn} {i : Nat} {name : String} :
    isFree (takenBefore i cs) name = true ↔
      ∀ j d, j < i → (assignNames cs)[j]? = some d → Text.fold d.name ≠ Text.fold name := by
  rw [isFree_iff, takenBefore, List.mem_reverse, List.mem_map, not_exists]
  constructor
  · intro h j d hj hd hsame
    have hm : d ∈ (assignNames cs).take i :=
      List.mem_of_getElem? ((List.getElem?_take_of_lt hj).trans hd)
    exact h d ⟨hm, hsame⟩
  · rintro h d ⟨hm, hsame⟩
    obtain ⟨j, hd⟩ := List.mem_iff_getElem?.1 hm
    rw [List.getElem?_take] at hd
    split at hd
    · rename_i hj
      exact h j d hj hd hsame
    · cases hd

/-- Only the names of columns are assigned. -/
theorem map_assignFrom {β : Type} {f : ResultColumn → β} (hf : ∀ c name, f { c with name } = f c)
    (position : Nat)
    (used : List String) (cs : List ResultColumn) :
    (assignFrom position used cs).map f = cs.map f := by
  induction cs generalizing position used with
  | nil => rfl
  | cons c cs ih => simp only [assignFrom, List.map_cons, hf, ih]

theorem map_assignNames {β : Type} {f : ResultColumn → β} (hf : ∀ c name, f { c with name } = f c)
    (cs : List ResultColumn) : (assignNames cs).map f = cs.map f := map_assignFrom hf 0 [] cs

/-- A column that is named is as often null as it was. -/
theorem isNullable_assignNames (cs : List ResultColumn) (i : Nat) :
    (assignNames cs)[i]?.bind (·.isNullable) = cs[i]?.bind (·.isNullable) := by
  have hmap := congrArg (·[i]?) (map_assignNames (f := (·.isNullable)) (fun _ _ => rfl) cs)
  simp only [List.getElem?_map] at hmap
  cases ha : (assignNames cs)[i]? <;> cases hc : cs[i]? <;> simp_all

private theorem nonempty_eq_some {s : String} (h : s ≠ "") : nonempty s = some s := by
  rw [nonempty, if_neg]
  simpa using h

private theorem candidate_eq_name {c : ResultColumn} (ha : c.aliasName = none) (hn : c.name ≠ "")
    (position : Nat) :
    c.candidate position = c.name := by
  simp [candidate, ha, nonempty_eq_some hn]

private theorem append_ne_empty {a b : String} (h : a ≠ "" ∨ b ≠ "") : a ++ b ≠ "" := by
  simpa [String.append_eq_empty_iff, ← not_and_or] using h

theorem candidate_ne_empty (c : ResultColumn) (position : Nat) : c.candidate position ≠ "" := by
  unfold candidate
  cases h :
    [c.aliasName, some c.name, c.sourceColumn, c.aliasTable, c.reference.map (·.name)].findSome?
      (·.bind nonempty) with
  | none => exact append_ne_empty (.inl (by decide))
  | some s =>
    obtain ⟨x, -, hx⟩ := List.exists_of_findSome?_eq_some h
    obtain ⟨t, -, ht⟩ := Option.bind_eq_some_iff.1 hx
    unfold nonempty at ht
    split at ht
    · cases ht
    · rename_i hne
      cases ht
      simpa using hne

theorem freeName_ne_empty (used : List String) (c : ResultColumn) (h : base ≠ "") :
    c.freeName used base ≠ "" := by
  unfold freeName
  split
  · exact h
  · dsimp only
    cases hf : List.find? (isFree used) _ with
    | some name =>
      obtain ⟨behind, -, rfl⟩ := List.mem_map.1 (List.mem_of_find?_eq_some hf)
      exact append_ne_empty (.inr h)
    | none =>
      unfold numbered
      cases hn : List.find? (isFree used) _ with
      | some name =>
        obtain ⟨i, -, rfl⟩ := List.mem_map.1 (List.mem_of_find?_eq_some hn)
        exact append_ne_empty (.inl h)
      | none => exact h

/-- No column is left without a name. -/
theorem name_ne_empty_of_mem_assignNames {c : ResultColumn} {cs : List ResultColumn}
    (h : c ∈ assignNames cs) :
    c.name ≠ "" := by
  obtain ⟨i, hi⟩ := List.mem_iff_getElem?.1 h
  rw [getElem?_assignNames, Option.map_eq_some_iff] at hi
  obtain ⟨b, -, rfl⟩ := hi
  exact freeName_ne_empty _ b (b.candidate_ne_empty i)

private theorem candidate_eq_alias {c : ResultColumn} {a : String} (ha : c.aliasName = some a)
    (hne : a ≠ "") (position : Nat) : c.candidate position = a := by
  simp [candidate, ha, nonempty_eq_some hne]

/-- A column is named by its alias unless a column before it has that name. -/
theorem getElem?_assignNames_of_aliasName {cs : List ResultColumn} {i : Nat}
    {c : ResultColumn} {a : String}
    (hi : cs[i]? = some c) (ha : c.aliasName = some a) (hne : a ≠ "")
    (hfree : ∀ j d, j < i → (assignNames cs)[j]? = some d → Text.fold d.name ≠ Text.fold a) :
    (assignNames cs)[i]? = some { c with name := a } := by
  have hname : c.freeName (takenBefore i cs) (c.candidate i) = a := by
    rw [candidate_eq_alias ha hne, freeName, if_pos (isFree_takenBefore_iff.2 hfree)]
  rw [getElem?_assignNames, hi, Option.map_some, hname]

private theorem candidate_named (c : ResultColumn) {name : String} (hn : name ≠ "")
    (position : Nat) :
    { c with name }.candidate position = name ∨
    { c with name }.candidate position = c.candidate position := by
  unfold candidate
  cases ha : c.aliasName.bind nonempty with
  | some a => exact .inr (by simp [ha])
  | none => exact .inl (by simp [ha, nonempty_eq_some hn])

private theorem assignFrom_assignFrom (position : Nat) (used : List String)
    (cs : List ResultColumn) :
    assignFrom position used (assignFrom position used cs) = assignFrom position used cs := by
  induction cs generalizing position used with
  | nil => rfl
  | cons c cs ih =>
    let name := c.freeName used (c.candidate position)
    -- A column with an alias asks again for the alias, and its choice is repeated among the same
    -- used names; any other column now asks for the name that it was given, which was free.
    have hagain : { c with name }.freeName used ({ c with name }.candidate position) = name := by
      have hname : name ≠ "" := freeName_ne_empty used c (c.candidate_ne_empty position)
      rcases c.candidate_named hname position with h | h
      · rw [h]
        exact if_pos (isFree_freeName used c _)
      · rw [h]
        rfl
    simp only [assignFrom]
    rw [hagain, ih]

/-- Columns that are named already keep their names. -/
theorem assignNames_assignNames (cs : List ResultColumn) :
    assignNames (assignNames cs) = assignNames cs :=
  assignFrom_assignFrom 0 [] cs

/-- Columns that have distinct names keep them. -/
theorem assignNames_eq_self {cs : List ResultColumn}
    (h : ∀ c ∈ cs, c.aliasName = none ∧ c.name ≠ "")
    (hn : (cs.map fun c => Text.fold c.name).Nodup) : assignNames cs = cs := by
  have hall : ∀ (position : Nat) (used : List String), (∀ c ∈ cs, Text.fold c.name ∉ used) →
      assignFrom position used cs = cs := by
    induction cs with
    | nil => exact fun _ _ _ => rfl
    | cons c cs ih =>
      intro position used hused
      obtain ⟨hc, hcs⟩ := List.forall_mem_cons.1 h
      obtain ⟨hfree, hused⟩ := List.forall_mem_cons.1 hused
      rw [List.map_cons, List.nodup_cons] at hn
      have hname : c.freeName used (c.candidate position) = c.name := by
        rw [candidate_eq_name hc.1 hc.2, freeName, if_pos]
        simpa [isFree] using hfree
      have hrest : assignFrom (position + 1) (Text.fold c.name :: used) cs = cs := by
        refine ih hcs hn.2 _ _ fun b hb => ?_
        rw [List.mem_cons, not_or]
        exact ⟨fun he => hn.1 (he ▸ List.mem_map_of_mem hb), hused b hb⟩
      rw [assignFrom, hname, hrest]
      cases c
      rfl
  exact hall 0 [] fun c _ => List.not_mem_nil

end ResultColumn

end ResultShape
