import ResultShape.Name
/-! Folding: what of a text does not depend on the case of its letters. -/
namespace ResultShape.Text

theorem fold_append (a b : String) : fold (a ++ b) = fold a ++ fold b := by
  apply String.toList_injective
  simp [fold]

theorem toList_fold (s : String) : (fold s).toList = s.toList.map Char.toLower := by simp [fold]

def capitals : List Char := "ABCDEFGHIJKLMNOPQRSTUVWXYZ".toList

theorem toLower_eq_self_or_mem_capitals (c : Char) : c.toLower = c ∨ c ∈ capitals := by
  by_cases hc : 65 ≤ c.toNat ∧ c.toNat < 91
  · have hall : ∀ n < 91, 65 ≤ n → Char.ofNat n ∈ capitals := by decide
    have hm := hall c.toNat hc.2 hc.1
    rw [Char.ofNat_toNat] at hm
    exact .inr hm
  · refine .inl ?_
    unfold Char.toLower
    rw [dif_neg]
    rintro ⟨hlow, hhigh⟩
    have hlow : 65 ≤ c.toNat := hlow
    have hhigh : c.toNat ≤ 90 := hhigh
    omega

/-- What is the same for each capital and its small letter is the same before and after folding. -/
theorem apply_toLower {α : Type} [DecidableEq α] {f : Char → α}
    (h : capitals.all fun c => f c.toLower = f c) (c : Char) : f c.toLower = f c := by
  obtain hsame | hm := toLower_eq_self_or_mem_capitals c
  · rw [hsame]
  · exact of_decide_eq_true (List.all_eq_true.1 h c hm)

theorem fold_fold (s : String) : fold (fold s) = fold s := by
  apply String.toList_injective
  rw [toList_fold, toList_fold, List.map_map]
  exact List.map_congr_left fun c _ => apply_toLower (by decide) c

/-- A number is written without letters. -/
theorem fold_toString (n : Nat) : fold (toString n) = toString n := by
  have hcapitals : (capitals.all fun c => !c.isDigit) = true := by decide
  have hdigits : ∀ c ∈ Nat.toDigits 10 n, c.toLower = c := by
    intro c hc
    have hdigit : c.isDigit = true := Nat.isDigit_of_mem_toDigits (by decide) (by decide) hc
    refine (toLower_eq_self_or_mem_capitals c).resolve_right fun hm => ?_
    have hletter := List.all_eq_true.1 hcapitals c hm
    rw [hdigit] at hletter
    exact Bool.false_ne_true hletter
  apply String.toList_injective
  rw [toList_fold, Nat.toString_eq_repr, Nat.toList_repr]
  exact (List.map_congr_left hdigits).trans (List.map_id _)

theorem isEmpty_fold (s : String) : (fold s).isEmpty = s.isEmpty := by
  rw [Bool.eq_iff_iff, String.isEmpty_iff, String.isEmpty_iff, ← String.toList_eq_nil_iff,
    ← String.toList_eq_nil_iff, toList_fold, List.map_eq_nil_iff]

/-- A character that is no letter, and that no letter folds to. -/
def IsSign (d : Char) : Prop := capitals.all fun c => (c.toLower == d) = (c == d)

instance (d : Char) : Decidable (IsSign d) := inferInstanceAs (Decidable (_ = true))

theorem toLower_eq_iff {d : Char} (h : IsSign d) (c : Char) : c.toLower = d ↔ c = d := by
  rw [← beq_iff_eq, apply_toLower (f := (· == d)) h, beq_iff_eq]

/-- Whether a text begins with a sign. -/
theorem head?_fold {d : Char} (h : IsSign d) (s : String) :
    ((fold s).toList.head? == some d) = (s.toList.head? == some d) := by
  rw [toList_fold, Bool.eq_iff_iff]
  cases s.toList with
  | nil => rfl
  | cons c cs => simp [toLower_eq_iff h]

theorem startsWith_at_fold (s : String) : (fold s).startsWith "@@" = s.startsWith "@@" := by
  have hat (c : Char) : '@' = c.toLower ↔ '@' = c := by
    rw [eq_comm, toLower_eq_iff (by decide), eq_comm]
  rw [Bool.eq_iff_iff, String.startsWith_string_iff, String.startsWith_string_iff, toList_fold]
  change ['@', '@'] <+: _ ↔ ['@', '@'] <+: _
  rcases s.toList with _ | ⟨a, _ | ⟨b, cs⟩⟩
  · rfl
  · simp [List.cons_prefix_cons]
  · simp [List.cons_prefix_cons, hat]

variable {a b : String}

theorem isEmpty_eq (h : fold a = fold b) : a.isEmpty = b.isEmpty := by
  rw [← isEmpty_fold, h, isEmpty_fold]

theorem startsWith_at_eq (h : fold a = fold b) : a.startsWith "@@" = b.startsWith "@@" := by
  rw [← startsWith_at_fold, h, startsWith_at_fold]

/-- The sign that marks a local table is no letter. -/
theorem isLocal_eq {n n' : Name} (hschema : n.schema.isSome = n'.schema.isSome)
    (h : fold n.name = fold n'.name) :
    n.isLocal = n'.isLocal := by
  have hat :=
    (head?_fold (d := '@') (by decide) n.name).symm.trans (h ▸ head?_fold (by decide) n'.name)
  have hhash :=
    (head?_fold (d := '#') (by decide) n.name).symm.trans (h ▸ head?_fold (by decide) n'.name)
  rw [Name.isLocal, Name.isLocal, hat, hhash, ← Option.not_isSome, ← Option.not_isSome, hschema]

end ResultShape.Text
