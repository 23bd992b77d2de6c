import ResultShape.Proofs.Analysis.Naming
/-! Collisions of names: when a column has the name that it asks for, and what
takes that name away from it. -/
namespace ResultShape.ResultColumn

variable {cs : List ResultColumn} {base : String} {i : Nat}

/-- What a column's name may be put behind: the table, the table alias and the object
that the column comes from. -/
def owners (c : ResultColumn) : List String :=
  [c.sourceTable, c.aliasTable, c.reference.map (·.name)].filterMap id

/-- A name that is made up for a column with these owners where the name
that it asks for is taken. -/
inductive MadeUp (owners : List String) (base : String) : String → Prop where
  | behind {owner : String} (h : owner ∈ owners) : MadeUp owners base (owner ++ "_" ++ base)
  | numbered {n : Nat} (h : 2 ≤ n) : MadeUp owners base (base ++ toString n)

/-- A column has the name that it asks for if that is free, else one that is made up from it. -/
theorem freeName_cases (used : List String) (c : ResultColumn) (base : String) :
    (isFree used base = true ∧ c.freeName used base = base) ∨
      (isFree used base = false ∧ MadeUp c.owners base (c.freeName used base)) := by
  by_cases hf : isFree used base = true
  · exact .inl ⟨hf, if_pos hf⟩
  · refine .inr ⟨Bool.eq_false_iff.2 hf, ?_⟩
    have hname : c.freeName used base =
        ((c.owners.map (· ++ "_" ++ base)).find? (isFree used)).getD (numbered used base) :=
      if_neg hf
    rw [hname]
    cases hb : List.find? (isFree used) _ with
    | some name =>
      obtain ⟨owner, ho, rfl⟩ := List.mem_map.1 (List.mem_of_find?_eq_some hb)
      exact .behind ho
    | none =>
      have hnumbered := isFree_numbered used base
      unfold numbered at hnumbered ⊢
      cases ht : List.find? (isFree used) _ with
      | some name =>
        obtain ⟨n, -, rfl⟩ := List.mem_map.1 (List.mem_of_find?_eq_some ht)
        exact .numbered (Nat.le_add_left 2 n)
      | none =>
        -- If no number helped, the numbered name would be the one that is taken.
        rw [ht] at hnumbered
        exact absurd hnumbered hf

theorem getElem?_candidates (cs : List ResultColumn) (i : Nat) :
    (candidates cs)[i]? = cs[i]?.map (·.candidate i) :=
  List.getElem?_mapIdx ..

/-- A column has the name that it asks for exactly if no column before it has that name. -/
theorem name_eq_candidate_iff (hi : (candidates cs)[i]? = some base) :
    (assignNames cs)[i]?.map (·.name) = some base ↔
      ∀ j d, j < i → (assignNames cs)[j]? = some d → Text.fold d.name ≠ Text.fold base := by
  rw [getElem?_candidates, Option.map_eq_some_iff] at hi
  obtain ⟨c, hc, rfl⟩ := hi
  rw [← isFree_takenBefore_iff, getElem?_assignNames, hc]
  have hfree := isFree_freeName (takenBefore i cs) c (c.candidate i)
  constructor
  · intro hname
    have hsame : c.freeName (takenBefore i cs) (c.candidate i) = c.candidate i :=
      Option.some.inj hname
    rwa [hsame] at hfree
  · exact fun hbase => congrArg some (if_pos hbase)

/-- A column has the name that it asks for, or a name that is made up from it because a column
before it has the other one. -/
theorem name_cases {d : ResultColumn} (hd : (assignNames cs)[i]? = some d) :
    ∃ own, (candidates cs)[i]? = some own ∧
      (d.name = own ∨ MadeUp d.owners own d.name ∧
        ∃ j e, j < i ∧ (assignNames cs)[j]? = some e ∧ Text.fold e.name = Text.fold own) := by
  rw [getElem?_assignNames, Option.map_eq_some_iff] at hd
  obtain ⟨c, hc, rfl⟩ := hd
  refine ⟨c.candidate i, by rw [getElem?_candidates, hc]; rfl, ?_⟩
  rcases freeName_cases (takenBefore i cs) c (c.candidate i) with ⟨-, hname⟩ | ⟨htaken, hname⟩
  · exact .inl hname
  · refine .inr ⟨hname, ?_⟩
    rw [← Bool.not_eq_true, isFree_takenBefore_iff] at htaken
    push Not at htaken
    exact htaken

/-- A name that one column alone asks for is the column's name exactly if no column before it has
that name. Whichever column before it has the name got it as one that was made up, after a column
still further before had taken the name which that column asked for. -/
theorem unique_candidate_kept (hi : (candidates cs)[i]? = some base)
    (hunique : ∀ j own, (candidates cs)[j]? = some own → Text.fold own = Text.fold base → j = i) :
    ((assignNames cs)[i]?.map (·.name) = some base ↔
        ∀ j d, j < i → (assignNames cs)[j]? = some d → Text.fold d.name ≠ Text.fold base) ∧
      ∀ j d, j < i → (assignNames cs)[j]? = some d → Text.fold d.name = Text.fold base →
        ∃ own, (candidates cs)[j]? = some own ∧ MadeUp d.owners own d.name ∧
          ∃ k e, k < j ∧ (assignNames cs)[k]? = some e ∧ Text.fold e.name = Text.fold own := by
  refine ⟨name_eq_candidate_iff hi, fun j d hj hd hsame => ?_⟩
  obtain ⟨own, hown, hname | hmade⟩ := name_cases hd
  · rw [hname] at hsame
    exact absurd (hunique j own hown hsame) (Nat.ne_of_lt hj)
  · exact ⟨own, hown, hmade⟩

/-- `Orders.Id`, `Customers.Id` and a value under the alias `Customers_Id`. -/
def idsAndAlias : List ResultColumn :=
  [{ name := "Id", source := some { table := some "Orders", column := some "Id" } },
    { name := "Id", source := some { table := some "Customers", column := some "Id" } },
    { aliasName := some "Customers_Id" }]

private theorem unique_customersId (j : Nat) (own : String)
    (hj : (candidates idsAndAlias)[j]? = some own)
    (hsame : Text.fold own = Text.fold "Customers_Id") : j = 2 := by
  have hcandidates : candidates idsAndAlias = ["Id", "Id", "Customers_Id"] := by rfl
  rw [hcandidates] at hj
  match j, hj with
  | 0, hj | 1, hj =>
    cases hj
    exact absurd hsame (by decide)
  | 2, _ => rfl

theorem customersId_unique_candidate :
    (candidates idsAndAlias)[2]? = some "Customers_Id" ∧
      (∀ j own, (candidates idsAndAlias)[j]? = some own →
        Text.fold own = Text.fold "Customers_Id" → j = 2) ∧
      ((assignNames idsAndAlias)[2]?.map (·.name) = some "Customers_Id" ↔
        ∀ j d, j < 2 → (assignNames idsAndAlias)[j]? = some d →
          Text.fold d.name ≠ Text.fold "Customers_Id") ∧
      ∀ j d, j < 2 → (assignNames idsAndAlias)[j]? = some d →
        Text.fold d.name = Text.fold "Customers_Id" →
        ∃ own, (candidates idsAndAlias)[j]? = some own ∧ MadeUp d.owners own d.name ∧
          ∃ k e, k < j ∧ (assignNames idsAndAlias)[k]? = some e ∧
            Text.fold e.name = Text.fold own :=
  ⟨rfl, unique_customersId, unique_candidate_kept rfl unique_customersId⟩

/-- The name made up for `Customers.Id` takes the alias of the column after it,
which no other column asks for. -/
theorem customersId_displaced :
    ¬∀ (cs : List ResultColumn) (i : Nat) (base : String), (candidates cs)[i]? = some base →
      (∀ j own, (candidates cs)[j]? = some own → Text.fold own = Text.fold base → j = i) →
        (assignNames cs)[i]?.map (·.name) = some base := by
  intro hkept
  have hnames :
      (assignNames idsAndAlias).map (·.name) = ["Id", "Customers_Id", "Customers_Id2"] := by rfl
  have hname := hkept idsAndAlias 2 "Customers_Id" rfl unique_customersId
  rw [← List.getElem?_map, hnames] at hname
  exact absurd hname (by decide)

end ResultShape.ResultColumn
