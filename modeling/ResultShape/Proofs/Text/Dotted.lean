import ResultShape.Proofs.Text.Fold
import ResultShape.Text.Dotted
/-! Dotted text: where no part holds a dot, the parts can be told from the text that they make. -/
namespace ResultShape.Text

/-- Texts that are the same are so before and behind their last separators. -/
theorem append_sep_inj {sep : Char} {xs ys cs ds : List Char} (hc : sep ∉ cs) (hd : sep ∉ ds) :
    xs ++ sep :: cs = ys ++ sep :: ds ↔ xs = ys ∧ cs = ds := by
  constructor
  · intro h
    rcases List.append_eq_append_iff.1 h with ⟨zs, hy, htail⟩ | ⟨zs, hx, htail⟩
    · cases zs with
      | nil => exact ⟨by simpa using hy.symm, (List.cons.inj htail).2⟩
      | cons z zs =>
        exact absurd ((List.cons.inj htail).2 ▸ List.mem_append_right zs List.mem_cons_self) hc
    · cases zs with
      | nil => exact ⟨by simpa using hx, ((List.cons.inj htail).2).symm⟩
      | cons z zs =>
        exact absurd ((List.cons.inj htail).2 ▸ List.mem_append_right zs List.mem_cons_self) hd
  · rintro ⟨rfl, rfl⟩
    rfl

/-- A text is split on either side of a separator. -/
theorem split_append_sep (sep : Char) (xs ys : List Char) :
    split sep (xs ++ sep :: ys) = split sep xs ++ split sep ys := by
  induction xs with
  | nil => simp [split]
  | cons c xs ih =>
    rw [List.cons_append, split, split, ih]
    split
    · rfl
    · obtain ⟨piece, pieces, hxs⟩ := List.exists_cons_of_ne_nil (split_ne_nil sep xs)
      rw [hxs]
      rfl

theorem glue_cons_cons (sep : Char) (p q : List Char) (rest : List (List Char)) :
    glue sep (p :: q :: rest) = p ++ sep :: glue sep (q :: rest) := rfl

/-- Pieces without the separator come back. -/
theorem split_glue {sep : Char} {pieces : List (List Char)} (hne : pieces ≠ [])
    (h : ∀ p ∈ pieces, sep ∉ p) :
    split sep (glue sep pieces) = pieces := by
  match pieces, hne with
  | [piece], _ => exact split_of_not_mem (h piece List.mem_cons_self)
  | piece :: next :: rest, _ =>
    obtain ⟨hpiece, hrest⟩ := List.forall_mem_cons.1 h
    rw [glue_cons_cons, split_append_sep, split_of_not_mem hpiece,
      split_glue (List.cons_ne_nil _ _) hrest, List.singleton_append]

theorem glue_append (sep : Char) {ps qs : List (List Char)} (hp : ps ≠ []) (hq : qs ≠ []) :
    glue sep (ps ++ qs) = glue sep ps ++ sep :: glue sep qs := by
  match ps, hp with
  | [p], _ =>
    match qs, hq with
    | q :: qs, _ => rfl
  | p :: p' :: ps, _ =>
    have ih := glue_append sep (List.cons_ne_nil p' ps) hq
    rw [List.cons_append] at ih
    rw [List.cons_append, List.cons_append, glue_cons_cons, ih, glue_cons_cons, List.append_assoc,
      List.cons_append]

theorem glue_segments (s : String) : glue '.' ((segments s).map String.toList) = s.toList := by
  have htexts : (segments s).map String.toList = split '.' s.toList := by
    simp [segments, Function.comp_def]
  rw [htexts, glue_split]

theorem dot_not_mem_of_mem_segments {s segment : String} (h : segment ∈ segments s) :
    '.' ∉ segment.toList := by
  obtain ⟨piece, hpiece, rfl⟩ := List.mem_map.1 h
  rw [String.toList_ofList]
  exact sep_not_mem_of_mem_split hpiece

/-- A dotted name is another one, or what stands in front of one of its dots. -/
def IsDottedPrefix (a b : String) : Prop := segments a <+: segments b

instance (a b : String) : Decidable (IsDottedPrefix a b) := inferInstanceAs (Decidable (_ <+: _))

theorem isDottedPrefix_iff {a b : String} :
    IsDottedPrefix a b ↔ a = b ∨ ∃ rest, b = a ++ "." ++ rest := by
  constructor
  · rintro ⟨tail, h⟩
    have hb := glue_segments b
    rw [← h, List.map_append] at hb
    cases tail with
    | nil =>
      rw [List.map_nil, List.append_nil, glue_segments] at hb
      exact .inl (String.toList_injective hb)
    | cons t ts =>
      refine .inr
        ⟨String.ofList (glue '.' ((t :: ts).map String.toList)), String.toList_injective ?_⟩
      rw [glue_append '.' (by simp [segments, split_ne_nil]) (by simp), glue_segments] at hb
      simp [← hb]
  · rintro (rfl | ⟨rest, rfl⟩)
    · exact List.prefix_rfl
    · refine ⟨segments rest, ?_⟩
      have hdot : (a ++ "." ++ rest).toList = a.toList ++ '.' :: rest.toList := by simp
      rw [segments, segments, segments, hdot, split_append_sep, List.map_append]

theorem dot_mem_fold {s : String} : '.' ∈ (fold s).toList ↔ '.' ∈ s.toList := by
  have hdot (c : Char) : c.toLower = '.' ↔ c = '.' := toLower_eq_iff (by decide) c
  simp [toList_fold, hdot]

section Keys

variable {catalog schema name catalog' schema' name' : String}

private theorem toList_keyOf (schema name : String) :
    (Name.keyOf schema name).toList = (fold schema).toList ++ '.' :: (fold name).toList := by
  simp [Name.keyOf, toList_fold]

private theorem fullKeyOf_eq_keyOf (catalog schema name : String) :
    Name.fullKeyOf catalog schema name = Name.keyOf (catalog ++ "." ++ schema) name := rfl

/-- Names without a dot can be told from the keys. -/
theorem keyOf_eq_iff (h : '.' ∉ name.toList) (h' : '.' ∉ name'.toList) :
    Name.keyOf schema name = Name.keyOf schema' name' ↔ fold schema = fold schema' ∧
    fold name = fold name' := by
  rw [← String.toList_inj, toList_keyOf, toList_keyOf,
    append_sep_inj (mt dot_mem_fold.1 h) (mt dot_mem_fold.1 h'), String.toList_inj,
    String.toList_inj]

/-- The catalog may hold dots, since it comes first. -/
theorem fullKeyOf_eq_iff (hs : '.' ∉ schema.toList) (hs' : '.' ∉ schema'.toList)
    (h : '.' ∉ name.toList) (h' : '.' ∉ name'.toList) :
    Name.fullKeyOf catalog schema name = Name.fullKeyOf catalog' schema' name' ↔
      fold catalog = fold catalog' ∧ fold schema = fold schema' ∧ fold name = fold name' := by
  rw [fullKeyOf_eq_keyOf, fullKeyOf_eq_keyOf, keyOf_eq_iff h h', ← and_assoc]
  exact and_congr_left' (keyOf_eq_iff hs hs')

/-- A key of two parts is none of three, if its schema has no dot. -/
theorem keyOf_ne_fullKeyOf (hs : '.' ∉ schema.toList) (h : '.' ∉ name.toList)
    (h' : '.' ∉ name'.toList) :
    Name.keyOf schema name ≠ Name.fullKeyOf catalog' schema' name' := by
  rw [fullKeyOf_eq_keyOf, ne_eq, keyOf_eq_iff h h']
  rintro ⟨hschema, -⟩
  refine hs (dot_mem_fold.1 ?_)
  rw [hschema, dot_mem_fold]
  simp

end Keys

end ResultShape.Text
