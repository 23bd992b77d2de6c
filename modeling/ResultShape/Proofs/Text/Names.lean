import ResultShape.Proofs.Text.Dotted
import ResultShape.Name
/-! Object names as text: a text comes back from the name read from it, and a name from its text
unless one of its parts holds a dot. -/
namespace ResultShape.Name

open Text

/-- The parts that are there, in written order. -/
def parts (n : Name) : List String := n.catalog.toList ++ n.schema.toList ++ [n.name]

theorem parts_ne_nil (n : Name) : n.parts ≠ [] :=
  List.append_ne_nil_of_right_ne_nil _ (List.cons_ne_nil _ _)

/-- A name is written as its parts with a dot between any two. -/
theorem toList_text (n : Name) : n.text.toList = glue '.' (n.parts.map String.toList) := by
  rcases n with ⟨_ | catalog, _ | schema, name⟩ <;> simp [text, parts, glue]

theorem segments_text {n : Name} (h : ∀ part ∈ n.parts, '.' ∉ part.toList) :
    segments n.text = n.parts := by
  have hne : n.parts.map String.toList ≠ [] := mt List.map_eq_nil_iff.1 n.parts_ne_nil
  have hdots : ∀ piece ∈ n.parts.map String.toList, '.' ∉ piece := List.forall_mem_map.2 h
  rw [segments, toList_text, split_glue hne hdots, List.map_map]
  simp [Function.comp_def]

/-- What a text is read into: its segments, or the text as a whole where
there are more than three. -/
theorem parts_ofText (s : String) : (ofText s).parts = segments s ∨ (ofText s).parts = [s] := by
  unfold ofText
  split
  next h => exact .inl h.symm
  next h => exact .inl h.symm
  next h => exact .inl h.symm
  next => exact .inr rfl

/-- The name read from a text is written as that text, however many dots it
has and wherever they stand. -/
theorem text_ofText (s : String) : (ofText s).text = s := by
  apply String.toList_injective
  rw [toList_text]
  obtain hparts | hparts := parts_ofText s
  · rw [hparts, glue_segments]
  · rw [hparts]
    rfl

/-- The parts of a name tell it apart, if a catalog comes with a schema only. -/
theorem ofText_of_segments {s : String} {n : Name} (h : segments s = n.parts)
    (hcatalog : n.catalog.isSome → n.schema.isSome) : ofText s = n := by
  rcases n with ⟨_ | catalog, _ | schema, name⟩
  · simp [ofText, h, parts, bare]
  · simp [ofText, h, parts, qualified]
  · exact absurd (hcatalog rfl) Bool.false_ne_true
  · simp [ofText, h, parts]

theorem ofText_text {n : Name} (hdots : ∀ part ∈ n.parts, '.' ∉ part.toList)
    (hcatalog : n.catalog.isSome → n.schema.isSome) : ofText n.text = n :=
  ofText_of_segments (segments_text hdots) hcatalog

/-- Names survive text in both directions. -/
theorem roundTrip : (∀ s, (ofText s).text = s) ∧
    ∀ n : Name, (∀ part ∈ n.parts, '.' ∉ part.toList) → (n.catalog.isSome → n.schema.isSome) →
      ofText n.text = n :=
  ⟨text_ofText, fun _ hdots hcatalog => ofText_text hdots hcatalog⟩

/-- A name of three parts, and a text that ends in a dot. -/
theorem roundTrip_sales_orders : (ofText "dbo..").text = "dbo.." ∧
    ofText (text ⟨some "Sales", some "dbo", "Orders"⟩) = ⟨some "Sales", some "dbo", "Orders"⟩ :=
  ⟨roundTrip.1 "dbo..", roundTrip.2 ⟨some "Sales", some "dbo", "Orders"⟩ (by decide) (by decide)⟩

end ResultShape.Name
