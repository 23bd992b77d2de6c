import ResultShape.Proofs.Alike.Model
/-! Mentions: which references a model mentions, and which of them its dependencies keep. -/
namespace ResultShape

namespace Reference

variable {seen : List Identity} {rs : List Reference} {r : Reference}

theorem mem_of_mem_distinct (h : r ∈ distinct seen rs) : r ∈ rs := by
  induction rs generalizing seen with
  | nil => exact h
  | cons a rs ih =>
    unfold distinct at h
    split at h
    · exact List.mem_cons_of_mem _ (ih h)
    · rcases List.mem_cons.1 h with rfl | h
      · exact List.mem_cons_self
      · exact List.mem_cons_of_mem _ (ih h)

/-- What is left out has the identity of one that is kept, or that was seen before. -/
theorem identity_mem_distinct (h : r ∈ rs) :
    r.identity ∈ seen ∨ ∃ d ∈ distinct seen rs, d.identity = r.identity := by
  induction rs generalizing seen with
  | nil => exact absurd h List.not_mem_nil
  | cons a rs ih =>
    unfold distinct
    split
    · rename_i hseen
      rcases List.mem_cons.1 h with rfl | h
      · exact .inl (by simpa using hseen)
      · exact ih h
    · rcases List.mem_cons.1 h with rfl | h
      · exact .inr ⟨r, List.mem_cons_self, rfl⟩
      · rcases @ih (a.identity :: seen) h with hs | ⟨d, hd, he⟩
        · rcases List.mem_cons.1 hs with hs | hs
          · exact .inr ⟨a, List.mem_cons_self, hs.symm⟩
          · exact .inl hs
        · exact .inr ⟨d, List.mem_cons_of_mem _ hd, he⟩

/-- What is kept was not seen before. -/
theorem identity_not_mem_of_mem_distinct (h : r ∈ distinct seen rs) : r.identity ∉ seen := by
  induction rs generalizing seen with
  | nil => exact absurd h List.not_mem_nil
  | cons a rs ih =>
    unfold distinct at h
    split at h
    · exact ih h
    · rename_i hseen
      rcases List.mem_cons.1 h with rfl | h
      · simpa using hseen
      · exact fun hr => ih h (List.mem_cons_of_mem _ hr)

theorem nodup_identity_distinct (seen : List Identity) (rs : List Reference) :
    ((distinct seen rs).map identity).Nodup := by
  induction rs generalizing seen with
  | nil => exact .nil
  | cons a rs ih =>
    unfold distinct
    split
    · exact ih seen
    · rw [List.map_cons, List.nodup_cons]
      refine ⟨fun ha => ?_, ih _⟩
      obtain ⟨d, hd, he⟩ := List.mem_map.1 ha
      exact identity_not_mem_of_mem_distinct hd (he ▸ List.mem_cons_self)

end Reference

namespace ResultColumn

private theorem within_iff {c d : ResultColumn} :
    d.Within c ↔ d = c ∨ ∃ e ∈ c.children, d.Within e := by
  constructor
  · intro h
    cases h with
    | self => exact .inl rfl
    | child he hd => exact .inr ⟨_, he, hd⟩
  · rintro (rfl | ⟨e, he, hd⟩)
    · exact .self
    · exact .child he hd

variable {r : Reference}

/-- A column mentions what it, or a column inside it, mentions by itself. -/
theorem mem_mentions {c : ResultColumn} :
    r ∈ c.mentions ↔ ∃ d : ResultColumn, d.Within c ∧ r ∈ d.ownMentions := by
  induction c using ResultColumn.mentions.induct
    (motive_2 := fun cs => r ∈ mentionsOfAll cs ↔ ∃ c ∈ cs, ∃ d : ResultColumn, d.Within c ∧
      r ∈ d.ownMentions) with
  | case1 =>
    rename_i children _ ih
    rw [mentions, List.mem_append, ih]
    constructor
    · rintro (h | ⟨e, he, d, hd, h⟩)
      · exact ⟨_, .self, h⟩
      · exact ⟨d, .child he hd, h⟩
    · rintro ⟨d, hd, h⟩
      rcases within_iff.1 hd with rfl | ⟨e, he, hd⟩
      · exact .inl h
      · exact .inr ⟨e, he, d, hd, h⟩
  | case2 => simp [mentionsOfAll]
  | case3 c cs ih ihs => simp [mentionsOfAll, ih, ihs]

theorem mem_mentionsOfAll {cs : List ResultColumn} :
    r ∈ mentionsOfAll cs ↔ ∃ c ∈ cs, r ∈ c.mentions := by
  induction cs with
  | nil => simp [mentionsOfAll]
  | cons c cs ih => simp [mentionsOfAll, ih]

end ResultColumn

namespace RoutineModel

variable {m : RoutineModel} {r : Reference}

/-- A model mentions what a result set, a column at any depth, an executed routine
or a type of a parameter is. -/
theorem mem_mentions :
    r ∈ m.mentions ↔ (∃ set ∈ m.resultSets, set.reference = some r) ∨
    (∃ c, m.HasColumn c ∧ r ∈ c.ownMentions) ∨
      r ∈ m.executedRoutines.map ExecutedRoutine.reference ∨ r ∈ m.parameterTypes := by
  have hsets :
      (r ∈ m.resultSets.flatMap fun set =>
        set.reference.toList ++ ResultColumn.mentionsOfAll set.columns) ↔
      (∃ set ∈ m.resultSets, set.reference = some r) ∨ ∃ c, m.HasColumn c ∧ r ∈ c.ownMentions := by
    simp only [List.mem_flatMap, List.mem_append, Option.mem_toList, ResultColumn.mem_mentionsOfAll,
      ResultColumn.mem_mentions, HasColumn]
    constructor
    · rintro ⟨set, hset, h | ⟨c, hc, d, hd, h⟩⟩
      · exact .inl ⟨set, hset, h⟩
      · exact .inr ⟨d, ⟨set, hset, c, hc, hd⟩, h⟩
    · rintro (⟨set, hset, h⟩ | ⟨d, ⟨set, hset, c, hc, hd⟩, h⟩)
      · exact ⟨set, hset, .inl h⟩
      · exact ⟨set, hset, .inr ⟨c, hc, d, hd, h⟩⟩
  rw [mentions, List.mem_append, List.mem_append, hsets, or_assoc, or_assoc]

theorem mem_mentions_of_mem_dependencies (h : r ∈ m.dependencies) : r ∈ m.mentions :=
  Reference.mem_of_mem_distinct h

/-- No two dependencies have one identity. -/
theorem eq_of_identity_eq {r' : Reference} (h : r ∈ m.dependencies) (h' : r' ∈ m.dependencies)
    (he : r.identity = r'.identity) : r = r' :=
  List.inj_on_of_nodup_map (Reference.nodup_identity_distinct [] m.mentions) h h' he

/-- Every object that a column mentions, at any depth, is among the dependencies. -/
theorem exists_dependency {c : ResultColumn} (hc : m.HasColumn c) (h : r ∈ c.ownMentions) :
    ∃ d ∈ m.dependencies, d.identity = r.identity :=
  (Reference.identity_mem_distinct (mem_mentions.2 (.inr (.inl ⟨c, hc, h⟩)))).resolve_left
    List.not_mem_nil

end RoutineModel

end ResultShape
