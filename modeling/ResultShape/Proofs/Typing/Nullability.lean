import ResultShape.Typing.Precedence
/-! Nullability: a value that is one of several may be null as soon as one of these may, is never
null if none of them ever is, and of anything else nothing is known. -/
namespace ResultShape

variable {a b : Option Bool}

theorem eitherNullable_eq_true_iff :
    eitherNullable a b = some true ↔ a = some true ∨ b = some true := by
  rcases a with _ | _ | _ <;> rcases b with _ | _ | _ <;> decide

theorem eitherNullable_eq_false_iff :
    eitherNullable a b = some false ↔ a = some false ∧ b = some false := by
  rcases a with _ | _ | _ <;> rcases b with _ | _ | _ <;> decide

/-- Whether one of several values is null: it may be if one of them may, it never
is if none of them ever is. -/
def anyNullable (ns : List (Option Bool)) : Option Bool :=
  if ns.contains (some true) then some true
  else if ns.all (· == some false) then some false else none

theorem anyNullable_singleton (n : Option Bool) : anyNullable [n] = n := by
  rcases n with _ | _ | _ <;> rfl

theorem anyNullable_eq_true_iff {ns : List (Option Bool)} :
    anyNullable ns = some true ↔ some true ∈ ns := by
  grind [anyNullable]

theorem anyNullable_eq_false_iff {ns : List (Option Bool)} :
    anyNullable ns = some false ↔ ∀ n ∈ ns, n = some false := by
  grind [anyNullable]

private theorem eq_of_iff {a b : Option Bool} (ht : a = some true ↔ b = some true)
    (hf : a = some false ↔ b = some false) :
    a = b := by
  rcases a with _ | _ | _ <;> rcases b with _ | _ | _ <;> simp_all

theorem anyNullable_append (ns ns' : List (Option Bool)) :
    anyNullable (ns ++ ns') = eitherNullable (anyNullable ns) (anyNullable ns') := by
  apply eq_of_iff
  · rw [eitherNullable_eq_true_iff, anyNullable_eq_true_iff, anyNullable_eq_true_iff,
      anyNullable_eq_true_iff, List.mem_append]
  · rw [eitherNullable_eq_false_iff, anyNullable_eq_false_iff, anyNullable_eq_false_iff,
      anyNullable_eq_false_iff, List.forall_mem_append]

/-- Values may be put together first. -/
theorem anyNullable_anyNullable (ns ns' : List (Option Bool)) :
    anyNullable (anyNullable ns :: ns') = anyNullable (ns ++ ns') := by
  rw [← List.singleton_append, anyNullable_append, anyNullable_append, anyNullable_singleton]

theorem anyNullable_pair (a b : Option Bool) : anyNullable [a, b] = eitherNullable a b := by
  rw [← List.singleton_append, anyNullable_append, anyNullable_singleton, anyNullable_singleton]

/-- What may be null stays so, whatever is put together with it. -/
theorem foldl_eitherNullable_true (ns : List (Option Bool)) :
    ns.foldl eitherNullable (some true) = some true := by
  induction ns with
  | nil => rfl
  | cons n ns ih => exact ih

end ResultShape
