import ResultShape.Analysis.Query
import ResultShape.Proofs.Model.Mentions
/-! Columns of used objects: whatever a column is made of, it mentions only
what its parts mention. -/
namespace ResultShape

variable {used : Reference → Prop}

/-- Where there is nothing, nothing is mentioned. -/
theorem unmentioned {α : Type} {P : α → Prop} (a : α) (h : none = some a) : P a := nomatch h

/-- What a column, or a column inside it, mentions is used: the object it names, the
one it is read from, its type. -/
structure ResultColumn.MentionsOnly (used : Reference → Prop) (c : ResultColumn) : Prop where
  reference : ∀ r, c.reference = some r → used r
  source : ∀ s, c.source = some s → ∀ r, s.object? = some r → used r
  userType : ∀ u, c.userType = some u → used (.ofName .userDefinedType u)
  children : ∀ r ∈ ResultColumn.mentionsOfAll c.children, used r

/-- What a result set, or a column of it, mentions is used. -/
structure ResultSet.MentionsOnly (used : Reference → Prop) (set : ResultSet) : Prop where
  reference : ∀ r, set.reference = some r → used r
  columns : ∀ c ∈ set.columns, c.MentionsOnly used

namespace ResultColumn

variable {c d : ResultColumn} {cs : List ResultColumn}

private theorem mem_mentions_iff {r : Reference} :
    r ∈ c.mentions ↔ r ∈ c.ownMentions ∨ r ∈ mentionsOfAll c.children := by
  cases c
  rw [mentions, List.mem_append]

theorem mentionsOnly_iff : c.MentionsOnly used ↔ ∀ r ∈ c.mentions, used r := by
  simp only [mem_mentions_iff, or_imp, forall_and, ownMentions, List.mem_append, Option.mem_toList]
  constructor
  · intro h
    refine ⟨⟨⟨h.reference, fun r hr => ?_⟩, fun r hr => ?_⟩, h.children⟩
    · obtain ⟨s, hs, hr⟩ := Option.bind_eq_some_iff.1 hr
      exact h.source s hs r hr
    · obtain ⟨u, hu, rfl⟩ := Option.map_eq_some_iff.1 hr
      exact h.userType u hu
  · rintro ⟨⟨⟨hreference, hsource⟩, htype⟩, hchildren⟩
    refine ⟨hreference, fun s hs r hr => hsource r ?_, fun u hu => htype _ ?_, hchildren⟩
    · rw [hs]
      exact hr
    · rw [hu]
      rfl

theorem mentionsOfAll_iff : (∀ r ∈ mentionsOfAll cs, used r) ↔ ∀ c ∈ cs, c.MentionsOnly used := by
  simp only [mem_mentionsOfAll, mentionsOnly_iff]
  grind

namespace MentionsOnly

theorem of_mem_children (h : c.MentionsOnly used) (hd : d ∈ c.children) : d.MentionsOnly used :=
  mentionsOfAll_iff.1 h.children d hd

/-- A column that names no object and is read from none, of a built-in type if it has any. -/
theorem plain (name : String) (aliasName aliasTable : Option String) (sqlType : Option SqlType)
    (isNullable : Option Bool) (isAmbiguous : Bool) (aggregate : Option String)
    (json : Option JsonInfo) :
    MentionsOnly used { name, aliasName, aliasTable, sqlType, isNullable, isAmbiguous,
                        aggregate, json } :=
  ⟨unmentioned, unmentioned, unmentioned, List.forall_mem_nil _⟩

/-- A column whose only mention is its type. -/
theorem typed {u : Option Name} (h : ∀ n, u = some n → used (.ofName .userDefinedType n))
    (name : String) (sqlType : Option SqlType) (isNullable : Option Bool) :
    MentionsOnly used { name, sqlType, userType := u, isNullable } :=
  ⟨unmentioned, unmentioned, h, List.forall_mem_nil _⟩

/-- A column whose mentions are all in the columns inside it. -/
theorem container (h : ∀ d ∈ cs, d.MentionsOnly used) (sqlType : Option SqlType)
    (isNullable : Option Bool)
    (json : Option JsonInfo) : MentionsOnly used { sqlType, isNullable, json, children := cs } :=
  ⟨unmentioned, unmentioned, unmentioned, mentionsOfAll_iff.2 h⟩

/-- A column mentions only what another one does of which it keeps some parts. -/
theorem of_parts (h : c.MentionsOnly used) (hr : d.reference = c.reference ∨ d.reference = none)
    (hs : d.source = c.source ∨ d.source = none) (hu : d.userType = c.userType ∨ d.userType = none)
    (hc : d.children = c.children) : d.MentionsOnly used := by
  refine ⟨fun r hd => ?_, fun s hd => ?_, fun u hd => ?_, hc ▸ h.children⟩
  · rcases hr with hr | hr
    · exact h.reference r (hr ▸ hd)
    · exact nomatch hr.symm.trans hd
  · rcases hs with hs | hs
    · exact h.source s (hs ▸ hd)
    · exact nomatch hs.symm.trans hd
  · rcases hu with hu | hu
    · exact h.userType u (hu ▸ hd)
    · exact nomatch hu.symm.trans hd

/-- A column that differs from another one in what is no mention. -/
theorem of_same (h : c.MentionsOnly used) (hr : d.reference = c.reference)
    (hs : d.source = c.source)
    (hu : d.userType = c.userType) (hc : d.children = c.children) : d.MentionsOnly used :=
  h.of_parts (.inl hr) (.inl hs) (.inl hu) hc

theorem literal (l : Literal) : l.column.MentionsOnly used := by
  cases l <;> exact plain _ _ _ _ _ _ _ _

theorem binary (op : BinaryOp) (hc : c.MentionsOnly used) (hd : d.MentionsOnly used) :
    (ResultColumn.binary op c d).MentionsOnly used := by
  unfold ResultColumn.binary
  dsimp only
  split
  · exact plain _ _ _ _ _ _ _ _
  · split
    · split
      · exact typed hd.userType _ _ _
      · exact typed hc.userType _ _ _
    · exact typed hc.userType _ _ _
    · exact typed hd.userType _ _ _
    · exact plain _ _ _ _ _ _ _ _

theorem unary (op : UnaryOp) (c : ResultColumn) : (ResultColumn.unary op c).MentionsOnly used := by
  unfold ResultColumn.unary
  split <;> exact plain _ _ _ _ _ _ _ _

theorem cast (kind : CastKind) {target : SqlType × Option Name}
    (ht : ∀ u, target.2 = some u → used (.ofName .userDefinedType u)) (hc : c.MentionsOnly used) :
    (c.cast kind target).MentionsOnly used :=
  ⟨hc.reference, hc.source, ht, hc.children⟩

/-- The first of several columns, which is what they come to where there are any. -/
private theorem head (h : ∀ c ∈ cs, c.MentionsOnly used) :
    (cs.head?.getD .blank).MentionsOnly used := by
  cases cs with
  | nil => exact plain _ _ _ _ _ _ _ _
  | cons c cs => exact h c List.mem_cons_self

/-- A column of the merged type, with any nullability. -/
private theorem merged (h : ∀ c ∈ cs, c.MentionsOnly used) (isNullable : Option Bool) :
    MentionsOnly used { ResultColumn.merged cs with isNullable } := by
  refine (head h).of_parts (.inl rfl) (.inl rfl) ?_ rfl
  unfold ResultColumn.merged
  dsimp only
  split
  · exact .inl rfl
  · exact .inr rfl

theorem coalesce (h : ∀ c ∈ cs, c.MentionsOnly used) :
    (ResultColumn.coalesce cs).MentionsOnly used := merged h _

theorem isNull (h : ∀ c ∈ cs, c.MentionsOnly used) :
    (ResultColumn.isNull cs).MentionsOnly used := merged h _

theorem nullif (h : c.MentionsOnly used) : c.nullif.MentionsOnly used := h.of_same rfl rfl rfl rfl

theorem conditional {branches : List Candidate} (h : ∀ b ∈ branches, b.column.MentionsOnly used)
    (hasElse : Bool) : (ResultColumn.conditional branches hasElse).MentionsOnly used := by
  unfold ResultColumn.conditional
  dsimp only
  split
  · exact plain _ _ _ _ _ _ _ _
  · rename_i first rest hbranches
    have hmem : Candidate.primary first rest ∈ branches.filter (!·.isNullLiteral) :=
      hbranches ▸ first.primary_mem rest
    refine (h _ (List.mem_of_mem_filter hmem)).of_parts (.inl rfl) (.inl rfl) ?_ rfl
    dsimp only
    split
    · exact .inl rfl
    · exact .inr rfl

theorem ofSubquery {set : ResultSet} (h : set.MentionsOnly used) :
    (ResultColumn.ofSubquery set).MentionsOnly used := by
  have hcolumns := h.columns
  unfold ResultColumn.ofSubquery
  split
  · exact container hcolumns _ _ _
  · split
    · rename_i single hsingle
      rw [hsingle] at hcolumns
      split
      · exact (hcolumns single List.mem_cons_self).of_same rfl rfl rfl rfl
      · exact container hcolumns _ _ _
    · exact container hcolumns _ _ _

theorem asJson (h : c.MentionsOnly used) (shapeUnknown : Bool) :
    (c.asJson shapeUnknown).MentionsOnly used :=
  h.of_same rfl rfl rfl rfl

theorem arrayOf (h : c.MentionsOnly used) : (ResultColumn.arrayOf c).MentionsOnly used := by
  refine container (fun d hd => ?_) _ _ _
  split at hd
  · exact h.of_mem_children hd
  · cases List.mem_singleton.1 hd
    exact h.of_same rfl rfl rfl rfl

theorem jsonFragment (h : c.MentionsOnly used) : c.jsonFragment.MentionsOnly used :=
  h.of_parts (.inl rfl) (.inl rfl) (.inr rfl) rfl

theorem assignNames (h : ∀ c ∈ cs, c.MentionsOnly used) :
    ∀ c ∈ ResultColumn.assignNames cs, c.MentionsOnly used := by
  have hall (position : Nat) (names : List String) :
      ∀ c ∈ assignFrom position names cs, c.MentionsOnly used := by
    induction cs generalizing position names with
    | nil => exact List.forall_mem_nil _
    | cons c cs ih =>
      intro d hd
      rcases List.mem_cons.1 hd with rfl | hd
      · exact (h c List.mem_cons_self).of_same rfl rfl rfl rfl
      · exact ih (fun d hd => h d (List.mem_cons_of_mem _ hd)) _ _ d hd
  exact hall 0 []

end MentionsOnly

end ResultColumn

namespace Projection

theorem mentionsOnly_union {p q : Projection} (h : ∀ c ∈ p.columns, c.MentionsOnly used) :
    ∀ c ∈ (p.union q).columns, c.MentionsOnly used := by
  intro c hc
  obtain ⟨i, hi, rfl⟩ := List.mem_mapIdx.1 hc
  have hcolumn := h _ (List.getElem_mem hi)
  split
  · exact hcolumn.of_same rfl rfl rfl rfl
  · exact hcolumn

theorem mentionsOnly_resultSet {p : Projection} (h : ∀ c ∈ p.columns, c.MentionsOnly used) :
    p.resultSet.MentionsOnly used :=
  ⟨unmentioned, .assignNames h⟩

end Projection

end ResultShape
