import Mathlib.Data.List.Induction
import Mathlib.Data.List.Lex
import ResultShape.Proofs.Model.Mentions
/-! First mentions: the dependencies of a model are the objects that it mentions, each as it is
first mentioned, in the order of these mentions. Mentions come in the order of their places: depth
first, so that a container comes before what it holds. -/
namespace ResultShape

/-- A column mentions an object at a place: by itself, or at a place of a column inside it. Its
reference stands at 0, the object of its source at 1 and its type at 2; the columns inside it
stand at 3, each at its index. -/
inductive ResultColumn.MentionsAt : ResultColumn → List ℕ → Reference → Prop where
  | reference {c : ResultColumn} {r : Reference} (h : c.reference = some r) : MentionsAt c [0] r
  | source {c : ResultColumn} {s : ColumnSource} {kind : ObjectKind} {table : String}
    (h : c.source = some s) (hkind : s.objectKind = some kind) (htable : s.table = some table) :
      MentionsAt c [1] ⟨kind, none, s.schema, table⟩
  | userType {c : ResultColumn} {n : Name} (h : c.userType = some n) :
      MentionsAt c [2] ⟨.userDefinedType, n.catalog, n.schema, n.name⟩
  | inside {c d : ResultColumn} {i : ℕ} {place : List ℕ} {r : Reference}
    (hd : c.children[i]? = some d) (h : MentionsAt d place r) : MentionsAt c (3 :: i :: place) r

/-- A model mentions an object at a place: for a result set, in one of its columns, by
executing it, or as the type of a parameter. Result sets stand at 0, what is executed at 1 and
the types at 2, each at its index; for a result set itself there is 0, and for its columns 1
with the index of the column. -/
inductive RoutineModel.MentionsAt (m : RoutineModel) : List ℕ → Reference → Prop where
  | resultSet {i : ℕ} {set : ResultSet} {r : Reference} (hset : m.resultSets[i]? = some set)
      (h : set.reference = some r) : MentionsAt m [0, i, 0] r
  | column {i j : ℕ} {set : ResultSet} {c : ResultColumn} {place : List ℕ} {r : Reference}
      (hset : m.resultSets[i]? = some set) (hc : set.columns[j]? = some c)
      (h : c.MentionsAt place r) :
      MentionsAt m (0 :: i :: 1 :: j :: place) r
  | executed {i : ℕ} {e : ExecutedRoutine} (h : m.executedRoutines[i]? = some e) :
      MentionsAt m [1, i] ⟨.procedure, e.catalog, some e.schema, e.name⟩
  | parameterType {i : ℕ} {r : Reference} (h : m.parameterTypes[i]? = some r) :
      MentionsAt m [2, i] r

/-- The references are what stands at the places of a relation, in their order. -/
def Listed (P : List ℕ → Reference → Prop) (rs : List Reference) : Prop :=
  ∃ ms : List (List ℕ × Reference), ms.map Prod.snd = rs ∧ (ms.map Prod.fst).Pairwise (· < ·) ∧
    ∀ place r, (place, r) ∈ ms ↔ P place r

namespace Listed

variable {P Q : List ℕ → Reference → Prop} {rs ss : List Reference}

private theorem congr (h : Listed P rs) (hiff : ∀ place r, P place r ↔ Q place r) :
    Listed Q rs := by
  obtain ⟨ms, hrs, hsorted, hmem⟩ := h
  exact ⟨ms, hrs, hsorted, fun place r => (hmem place r).trans (hiff place r)⟩

private theorem append (h : Listed P rs) (h' : Listed Q ss)
    (hlt : ∀ p r q s, P p r → Q q s → p < q) : Listed (fun place r => P place r ∨ Q place r)
    (rs ++ ss) := by
  obtain ⟨ms, rfl, hsorted, hmem⟩ := h
  obtain ⟨ns, rfl, hsorted', hmem'⟩ := h'
  refine ⟨ms ++ ns, List.map_append, ?_, fun place r => ?_⟩
  · rw [List.map_append, List.pairwise_append]
    refine ⟨hsorted, hsorted', fun p hp q hq => ?_⟩
    obtain ⟨⟨p, r⟩, hm, rfl⟩ := List.mem_map.1 hp
    obtain ⟨⟨q, s⟩, hn, rfl⟩ := List.mem_map.1 hq
    exact hlt p r q s ((hmem p r).1 hm) ((hmem' q s).1 hn)
  · rw [List.mem_append, hmem, hmem']

private theorem at_most_one (place : List ℕ) (r? : Option Reference) :
    Listed (fun p r => p = place ∧ r? = some r) r?.toList := by
  cases r? with
  | none => exact ⟨[], rfl, .nil, by simp⟩
  | some r => exact ⟨[(place, r)], rfl, List.pairwise_singleton _ _, by simp [eq_comm]⟩

private theorem under (k : ℕ) (h : Listed P rs) :
    Listed (fun p r => ∃ q, p = k :: q ∧ P q r) rs := by
  obtain ⟨ms, rfl, hsorted, hmem⟩ := h
  refine ⟨ms.map fun m => (k :: m.1, m.2), by simp, ?_, fun place r => ?_⟩
  · rw [List.map_map, List.pairwise_map]
    exact (List.pairwise_map.1 hsorted).imp fun h => List.cons_lt_cons_iff.2 (.inr ⟨rfl, h⟩)
  · simp [← hmem, and_comm, eq_comm]

/-- The parts of a list come one after the other, each under its index. -/
private theorem indexed {α : Type} {P : α → List ℕ → Reference → Prop}
    {f : α → List Reference} {xs : List α} (h : ∀ x ∈ xs, Listed (P x) (f x)) :
    Listed (fun p r => ∃ i x q, xs[i]? = some x ∧ p = i :: q ∧ P x q r) (xs.flatMap f) := by
  induction xs using List.reverseRecOn with
  | nil => exact ⟨[], rfl, .nil, by simp⟩
  | append_singleton xs x ih =>
    obtain ⟨hxs, hx⟩ := List.forall_mem_append.1 h
    have hlast := (hx x List.mem_cons_self).under xs.length
    rw [List.flatMap_append, List.flatMap_singleton]
    refine ((ih hxs).append hlast ?_).congr fun place r => ?_
    · rintro p r q s ⟨i, y, p, hi, rfl, -⟩ ⟨q, rfl, -⟩
      exact List.cons_lt_cons_iff.2 (.inl (List.getElem?_eq_some_iff.1 hi).1)
    · constructor
      · rintro (⟨i, y, q, hi, rfl, hp⟩ | ⟨q, rfl, hp⟩)
        · exact ⟨i, y, q,
            List.getElem?_append_left (List.getElem?_eq_some_iff.1 hi).1 ▸ hi, rfl, hp⟩
        · exact ⟨xs.length, x, q, by simp, rfl, hp⟩
      · rintro ⟨i, y, q, hi, rfl, hp⟩
        rcases Nat.lt_or_ge i xs.length with hlt | hge
        · exact .inl ⟨i, y, q, List.getElem?_append_left hlt ▸ hi, rfl, hp⟩
        · rw [List.getElem?_append_right hge, List.getElem?_singleton] at hi
          split at hi
          · cases hi
            exact .inr ⟨q, by rw [show i = xs.length by omega], hp⟩
          · cases hi

end Listed

theorem ColumnSource.object?_eq_some_iff {s : ColumnSource} {r : Reference} :
    s.object? = some r ↔ ∃ kind table, s.objectKind = some kind ∧ s.table = some table ∧
    r = ⟨kind, none, s.schema, table⟩ := by
  simp [object?, Option.bind_eq_some_iff, eq_comm (a := r)]

theorem ResultColumn.mentionsOfAll_eq_flatMap (cs : List ResultColumn) :
    mentionsOfAll cs = cs.flatMap mentions := by
  induction cs with
  | nil => rfl
  | cons c cs ih => rw [mentionsOfAll, ih, List.flatMap_cons]

/-- Mentions of a column are listed depth first: its own ones, then those
of the columns inside it. -/
private theorem ResultColumn.listed_mentions (c : ResultColumn) :
    Listed c.MentionsAt c.mentions := by
  induction c using ResultColumn.mentions.induct
    (motive_2 := fun cs => ∀ c ∈ cs, Listed c.MentionsAt c.mentions) with
  | case1 name aliasName aliasTable source sqlType userType isNullable isAmbiguous reference
      aggregate json children ih =>
    rw [mentions, mentionsOfAll_eq_flatMap, ownMentions]
    have hsources := (Listed.at_most_one [0] reference).append
      (Listed.at_most_one [1] (source.bind ColumnSource.object?)) (by
        rintro p r q s ⟨rfl, -⟩ ⟨rfl, -⟩
        decide)
    have hown := hsources.append
      (Listed.at_most_one [2] (userType.map (Reference.ofName .userDefinedType))) (by
        rintro p r q s (⟨rfl, -⟩ | ⟨rfl, -⟩) ⟨rfl, -⟩ <;> decide)
    refine (hown.append ((Listed.indexed ih).under 3) ?_).congr fun place r => ?_
    · rintro p r q s ((⟨rfl, -⟩ | ⟨rfl, -⟩) | ⟨rfl, -⟩) ⟨q, rfl, -⟩ <;>
        exact List.cons_lt_cons_iff.2 (.inl (by decide))
    · constructor
      · rintro (((⟨rfl, h⟩ | ⟨rfl, h⟩) | ⟨rfl, h⟩) | ⟨q, rfl, i, d, place, hd, rfl, h⟩)
        · exact .reference h
        · obtain ⟨s, hs, h⟩ := Option.bind_eq_some_iff.1 h
          obtain ⟨kind, table, hkind, htable, rfl⟩ := ColumnSource.object?_eq_some_iff.1 h
          exact .source hs hkind htable
        · obtain ⟨n, hn, rfl⟩ := Option.map_eq_some_iff.1 h
          exact .userType hn
        · exact .inside hd h
      · rintro (h | ⟨hs, hkind, htable⟩ | h | ⟨hd, h⟩)
        · exact .inl (.inl (.inl ⟨rfl, h⟩))
        · have hobject := ColumnSource.object?_eq_some_iff.2 ⟨_, _, hkind, htable, rfl⟩
          exact .inl (.inl (.inr ⟨rfl, Option.bind_eq_some_iff.2 ⟨_, hs, hobject⟩⟩))
        · exact .inl (.inr ⟨rfl, Option.map_eq_some_iff.2 ⟨_, h, rfl⟩⟩)
        · exact .inr ⟨_, rfl, _, _, _, hd, rfl, h⟩
  | case2 d hd => exact absurd hd List.not_mem_nil
  | case3 c cs ih ihs d hd =>
    rcases List.mem_cons.1 hd with rfl | hd
    · exact ih
    · exact ihs d hd

/-- Mentions of a model are listed in the order of their places. -/
private theorem RoutineModel.listed_mentions (m : RoutineModel) :
    Listed m.MentionsAt m.mentions := by
  have hbefore {i j : ℕ} (p q : List ℕ) (hij : i < j) : i :: p < j :: q :=
    List.cons_lt_cons_iff.2 (.inl hij)
  have hset (set : ResultSet) := (Listed.at_most_one [0] set.reference).append
    ((Listed.indexed fun c (_ : c ∈ set.columns) => c.listed_mentions).under 1) (by
      rintro p r q s ⟨rfl, -⟩ ⟨q, rfl, -⟩
      exact hbefore _ _ (by decide))
  have hsets := (Listed.indexed fun set (_ : set ∈ m.resultSets) => hset set).under 0
  have hexecuted := (Listed.indexed fun e (_ : e ∈ m.executedRoutines) =>
    Listed.at_most_one [] (some e.reference)).under 1
  have htypes := (Listed.indexed fun t (_ : t ∈ m.parameterTypes) =>
    Listed.at_most_one [] (some t)).under 2
  have hbodies := hsets.append hexecuted (by
    rintro p r q s ⟨p, rfl, -⟩ ⟨q, rfl, -⟩
    exact hbefore _ _ (by decide))
  have hall := hbodies.append htypes (by
    rintro p r q s (⟨p, rfl, -⟩ | ⟨p, rfl, -⟩) ⟨q, rfl, -⟩ <;>
      exact hbefore _ _ (by decide))
  have hmentions : m.mentions =
      m.resultSets.flatMap (fun set =>
        set.reference.toList ++ set.columns.flatMap ResultColumn.mentions) ++
        m.executedRoutines.flatMap (fun e => (some e.reference).toList) ++
        m.parameterTypes.flatMap (fun t => (some t).toList) := by
    simp only [mentions, ResultColumn.mentionsOfAll_eq_flatMap, Option.toList_some,
      List.flatMap_singleton', List.map_eq_flatMap]
  rw [hmentions]
  refine hall.congr fun place r => ?_
  constructor
  · rintro ((⟨q, rfl, i, set, q, hi, rfl, (⟨rfl, h⟩ | ⟨q, rfl, j, c, place, hc, rfl, h⟩)⟩ |
      ⟨q, rfl, i, e, q, hi, rfl, rfl, h⟩) | ⟨q, rfl, i, t, q, hi, rfl, rfl, h⟩)
    · exact .resultSet hi h
    · exact .column hi hc h
    · cases h
      exact .executed hi
    · cases h
      exact .parameterType hi
  · rintro (⟨hset, h⟩ | ⟨hset, hc, h⟩ | h | h)
    · exact .inl (.inl ⟨_, rfl, _, _, _, hset, rfl, .inl ⟨rfl, h⟩⟩)
    · exact .inl (.inl ⟨_, rfl, _, _, _, hset, rfl, .inr ⟨_, rfl, _, _, _, hc, rfl, h⟩⟩)
    · exact .inl (.inr ⟨_, rfl, _, _, _, h, rfl, rfl, rfl⟩)
    · exact .inr ⟨_, rfl, _, _, _, h, rfl, rfl, rfl⟩

/-- Of references in the order of their places, the distinct ones are the first of each
identity, in the same order. -/
private theorem Reference.exists_firsts {ms : List (List ℕ × Reference)}
    (h : (ms.map Prod.fst).Pairwise (· < ·)) (seen : List Identity) :
    ∃ firsts : List (List ℕ × Reference), firsts.map Prod.snd = distinct seen (ms.map Prod.snd) ∧
      firsts.Sublist ms ∧
      ∀ d ∈ firsts, ∀ q ∈ ms, q.2.identity = d.2.identity → d.1 ≤ q.1 := by
  induction ms generalizing seen with
  | nil => exact ⟨[], rfl, .slnil, nofun⟩
  | cons a ms ih =>
    rw [List.map_cons, List.pairwise_cons] at h
    obtain ⟨hfirst, hsorted⟩ := h
    rw [List.map_cons, distinct]
    split
    · rename_i hseen
      obtain ⟨firsts, hmap, hsub, hle⟩ := ih hsorted seen
      refine ⟨firsts, hmap, hsub.cons a, fun d hd q hq he => ?_⟩
      have hnew : d.2.identity ∉ seen :=
        identity_not_mem_of_mem_distinct (hmap ▸ List.mem_map_of_mem hd)
      rcases List.mem_cons.1 hq with rfl | hq
      · exact absurd (he ▸ (by simpa using hseen)) hnew
      · exact hle d hd q hq he
    · obtain ⟨firsts, hmap, hsub, hle⟩ := ih hsorted (a.2.identity :: seen)
      refine ⟨a :: firsts, by rw [List.map_cons, hmap], hsub.cons_cons a, fun d hd q hq he => ?_⟩
      rcases List.mem_cons.1 hd with rfl | hd
      · rcases List.mem_cons.1 hq with rfl | hq
        · exact le_rfl
        · exact (hfirst _ (List.mem_map_of_mem hq)).le
      · have hnew : d.2.identity ∉ a.2.identity :: seen :=
          identity_not_mem_of_mem_distinct (hmap ▸ List.mem_map_of_mem hd)
        rcases List.mem_cons.1 hq with rfl | hq
        · exact absurd (he ▸ List.mem_cons_self) hnew
        · exact hle d hd q hq he

/-- No two dependencies of a model have one identity, and an identity is that of a dependency
exactly if some mention has it. Each dependency is what the model mentions at the first place where
it mentions something of this identity, and the dependencies come in the order of these places. -/
theorem RoutineModel.dependencies_first_mentions (m : RoutineModel) :
    (m.dependencies.map Reference.identity).Nodup ∧
      (∀ identity, identity ∈ m.dependencies.map Reference.identity ↔
        ∃ place r, m.MentionsAt place r ∧ r.identity = identity) ∧
      ∃ places : List (List ℕ), places.Pairwise (· < ·) ∧
        List.Forall₂ (fun place d => m.MentionsAt place d ∧
          ∀ place' r, m.MentionsAt place' r → r.identity = d.identity → place ≤ place') places
            m.dependencies := by
  obtain ⟨ms, hms, hsorted, hmem⟩ := m.listed_mentions
  obtain ⟨firsts, hfirsts, hsub, hle⟩ := Reference.exists_firsts hsorted []
  rw [hms] at hfirsts
  refine ⟨Reference.nodup_identity_distinct [] m.mentions, fun identity => ?_, firsts.map Prod.fst,
    hsorted.sublist (hsub.map _), ?_⟩
  · rw [List.mem_map]
    constructor
    · rintro ⟨d, hd, rfl⟩
      have hd := mem_mentions_of_mem_dependencies hd
      rw [← hms] at hd
      obtain ⟨⟨place, r⟩, hr, rfl⟩ := List.mem_map.1 hd
      exact ⟨place, r, (hmem place r).1 hr, rfl⟩
    · rintro ⟨place, r, hr, rfl⟩
      have hr : r ∈ m.mentions := hms ▸ List.mem_map_of_mem ((hmem place r).2 hr)
      exact (Reference.identity_mem_distinct hr).resolve_left List.not_mem_nil
  · rw [dependencies, ← hfirsts, List.forall₂_map_left_iff, List.forall₂_map_right_iff,
      List.forall₂_same]
    rintro ⟨place, d⟩ hd
    refine ⟨(hmem place d).1 (hsub.subset hd), fun place' r hr he => ?_⟩
    exact hle _ hd _ ((hmem place' r).2 hr) he

end ResultShape
