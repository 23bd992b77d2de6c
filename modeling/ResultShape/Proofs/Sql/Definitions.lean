import Mathlib.Data.Finset.Card
import ResultShape.Proofs.Sql.Inner
import ResultShape.Text.Fold
/-! Definitions: the common table expressions that a query can meet, and how
much work is left among them. -/
namespace ResultShape

private theorem length_le_length_flatMap {α β : Type} (f : α → List β) {as : List α} {a : α}
    (h : a ∈ as) : (f a).length ≤ (as.flatMap f).length := by
  rw [List.flatMap_def]
  exact (List.sublist_flatten_of_mem (List.mem_map_of_mem h)).length_le

/-- How many queries stand inside a query, itself among them. -/
def Query.size (q : Query) : Nat := q.subqueries.length

private theorem Query.subqueries_eq (q : Query) :
    q.subqueries = q :: q.inner.flatMap subqueries := by
  rw [subqueries]
  simp

theorem Query.size_lt_of_mem_inner {q r : Query} (h : r ∈ q.inner) : r.size < q.size := by
  have hq : q.size = (q.inner.flatMap Query.subqueries).length + 1 := by
    rw [size, subqueries_eq, List.length_cons]
  rw [hq]
  exact Nat.lt_succ_of_le (length_le_length_flatMap _ h)

/-- The CTEs that a `WITH` clause of the query defines, at any level. -/
def Query.definitions (q : Query) : List Cte := q.subqueries.flatMap (·.ctes)

namespace Query

variable {q r : Query} {cte : Cte}

theorem definitions_eq (q : Query) : q.definitions = q.ctes ++ q.inner.flatMap definitions := by
  rw [definitions, subqueries_eq, List.flatMap_cons, List.flatMap_assoc]
  rfl

theorem ctes_subset_definitions (q : Query) : q.ctes ⊆ q.definitions := by
  intro cte hc
  exact List.mem_flatMap.2 ⟨q, q.mem_subqueries_self, hc⟩

theorem definitions_subset_of_mem_subqueries (h : r ∈ q.subqueries) :
    r.definitions ⊆ q.definitions := by
  intro cte hc
  obtain ⟨s, hs, hc⟩ := List.mem_flatMap.1 hc
  exact List.mem_flatMap.2 ⟨s, mem_subqueries_trans h hs, hc⟩

theorem definitions_subset_of_mem_body (h : r ∈ q.body.queries) : r.definitions ⊆ q.definitions :=
  definitions_subset_of_mem_subqueries (mem_subqueries_of_inner (List.mem_append_right _ h)
    r.mem_subqueries_self)

theorem definitions_subset_of_mem_definitions (h : cte ∈ q.definitions) :
    cte.query.definitions ⊆ q.definitions := by
  obtain ⟨s, hs, hc⟩ := List.mem_flatMap.1 h
  have hi : cte.query ∈ s.inner := List.mem_append_left _ (List.mem_map_of_mem hc)
  exact definitions_subset_of_mem_subqueries
    (mem_subqueries_trans hs (mem_subqueries_of_inner hi cte.query.mem_subqueries_self))

end Query

theorem Body.queries_leftmost_subset (b : Body) : b.leftmost.queries ⊆ b.queries := by
  induction b using Body.leftmost.induct with
  | case1 op left right ih => exact fun r hr => List.mem_append_left _ (ih hr)
  | case2 body hb =>
    rw [Body.leftmost]
    · exact fun r hr => hr
    · exact hb

/-- A list of definitions with all that their queries define. -/
structure Definitions where
  ctes : List Cte
  closed : ∀ cte ∈ ctes, cte.query.definitions ⊆ ctes

namespace Definitions

/-- The definitions around a query and those in it. -/
def around (frames : List (List Cte)) (q : Query) : Definitions where
  ctes := frames.flatten ++ frames.flatten.flatMap (·.query.definitions) ++ q.definitions
  closed := by
    intro cte hc d hd
    rcases List.mem_append.1 hc with hc | hc
    · rcases List.mem_append.1 hc with hc | hc
      · exact List.mem_append_left _ (List.mem_append_right _ (List.mem_flatMap.2 ⟨cte, hc, hd⟩))
      · obtain ⟨e, he, hc⟩ := List.mem_flatMap.1 hc
        have := Query.definitions_subset_of_mem_definitions hc hd
        exact List.mem_append_left _ (List.mem_append_right _ (List.mem_flatMap.2 ⟨e, he, this⟩))
    · exact List.mem_append_right _ (Query.definitions_subset_of_mem_definitions hc hd)

/-- More than the queries inside each definition. -/
def height (k : Definitions) : Nat := (k.ctes.flatMap (·.query.subqueries)).length + 1

/-- How many names are defined that are not being computed. -/
def idle (k : Definitions) (inProgress : List String) : Nat :=
  ((k.ctes.map fun cte => Text.fold cte.name).toFinset \ inProgress.toFinset).card

/-- How many queries can at most be opened inside one another, from a query on. -/
def work (k : Definitions) (inProgress : List String) (q : Query) : Nat :=
  q.size + k.idle inProgress * k.height

variable {k : Definitions} {inProgress : List String} {cte : Cte}

theorem size_lt_height (h : cte ∈ k.ctes) : cte.query.size < k.height :=
  Nat.lt_succ_of_le (length_le_length_flatMap (fun cte : Cte => cte.query.subqueries) h)

theorem idle_lt (h : cte ∈ k.ctes) (hp : Text.fold cte.name ∉ inProgress) :
    k.idle (Text.fold cte.name :: inProgress) < k.idle inProgress := by
  have hm : Text.fold cte.name ∈ k.ctes.map fun cte => Text.fold cte.name := List.mem_map_of_mem h
  apply Finset.card_lt_card
  rw [Finset.ssubset_iff_of_subset]
  · exact ⟨Text.fold cte.name, by simp [hm, hp], by simp⟩
  · intro x hx
    simp only [Finset.mem_sdiff, List.mem_toFinset, List.mem_cons, not_or] at hx ⊢
    exact ⟨hx.1, hx.2.2⟩

/-- To compute a CTE is less work than any query that refers to it. -/
theorem work_cte_lt (h : cte ∈ k.ctes) (hp : Text.fold cte.name ∉ inProgress) (q : Query) :
    k.work (Text.fold cte.name :: inProgress) cte.query < k.work inProgress q := by
  have hs := size_lt_height h
  have hi := idle_lt h hp
  have hm := Nat.mul_le_mul_right k.height (Nat.succ_le_of_lt hi)
  rw [Nat.succ_mul] at hm
  unfold work
  omega

theorem work_lt {q r : Query} (k : Definitions) (inProgress : List String)
    (h : r ∈ q.body.queries) :
    k.work inProgress r < k.work inProgress q :=
  Nat.add_lt_add_right (Query.size_lt_of_mem_inner (List.mem_append_right _ h)) _

end Definitions

end ResultShape
