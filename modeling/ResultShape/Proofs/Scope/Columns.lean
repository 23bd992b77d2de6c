import ResultShape.Scope.Column
/-! Column maps: every way to make one puts each column under its own folded name. -/
namespace ResultShape.ColumnMap

/-- Each column is kept under its own folded name. -/
def Named (m : ColumnMap) : Prop := ∀ p ∈ m.toList, p.1 = Text.fold p.2.name

theorem named_empty : Named .empty := fun _ hp => absurd hp List.not_mem_nil

private theorem Named.insert {m : ColumnMap} (h : m.Named) (info : ColumnInfo) :
    Named (Keyed.insert m (Text.fold info.name) info) := by
  intro p hp
  rcases Keyed.mem_insert hp with rfl | hp
  · rfl
  · exact h p hp

theorem named_ofInfos (infos : List ColumnInfo) : (ofInfos infos).Named := by
  have hall : ∀ (m : ColumnMap) (infos : List ColumnInfo), m.Named →
      Named (Keyed.insertAll m (infos.map fun i : ColumnInfo => (Text.fold i.name, i))) := by
    intro m infos
    induction infos generalizing m with
    | nil => exact fun h => h
    | cons i infos ih => exact fun h => ih _ (h.insert i)
  exact hall .empty infos named_empty

private theorem mem_of_mem_insertAll {m : ColumnMap} {infos : List ColumnInfo}
    {p : String × ColumnInfo}
    (h : p ∈ (Keyed.insertAll m (infos.map fun i => (Text.fold i.name, i))).toList) :
    p ∈ m.toList ∨ p.2 ∈ infos := by
  induction infos generalizing m with
  | nil => exact .inl h
  | cons i infos ih =>
    rcases ih (m := Keyed.insert m (Text.fold i.name) i) h with h | h
    · rcases Keyed.mem_insert h with rfl | h
      · exact .inr List.mem_cons_self
      · exact .inl h
    · exact .inr (List.mem_cons_of_mem _ h)

/-- What is in the map is one of the columns that it is made from. -/
theorem mem_of_mem_ofInfos {infos : List ColumnInfo} {p : String × ColumnInfo}
    (h : p ∈ (ofInfos infos).toList) :
    p.2 ∈ infos :=
  (mem_of_mem_insertAll h).resolve_left fun hp => absurd hp List.not_mem_nil

private theorem mem_keys_insertAll {key : String} {m : ColumnMap} {infos : List ColumnInfo} :
    key ∈ (Keyed.insertAll m (infos.map fun i => (Text.fold i.name, i))).keys ↔
      key ∈ m.keys ∨ ∃ i ∈ infos, Text.fold i.name = key := by
  induction infos generalizing m with
  | nil => simp [Keyed.insertAll]
  | cons i infos ih =>
    refine Iff.trans (ih (m := Keyed.insert m (Text.fold i.name) i)) ?_
    simp only [Keyed.keys_insert, List.mem_cons, exists_eq_or_imp]
    split <;> grind

/-- The keys are the folded names of the columns. -/
theorem mem_keys_ofInfos {key : String} {infos : List ColumnInfo} :
    key ∈ (ofInfos infos).keys ↔ ∃ i ∈ infos, Text.fold i.name = key := by
  refine mem_keys_insertAll.trans ?_
  simp [Keyed.keys, Keyed.empty]

private theorem toList_insertAll {m : ColumnMap} {ps : List (String × ColumnInfo)}
    (h : (m.keys ++ ps.map Prod.fst).Nodup) : (Keyed.insertAll m ps).toList = m.toList ++ ps := by
  induction ps generalizing m with
  | nil => exact (List.append_nil _).symm
  | cons p ps ih =>
    have hp : p.1 ∉ m.keys := fun hm => (List.nodup_append.1 h).2.2 _ hm _ List.mem_cons_self rfl
    have hinsert : m.insertNew p.1 p.2 = Keyed.insert m p.1 p.2 :=
      if_neg fun hc => hp (Keyed.contains_iff.1 hc)
    have hrest : ((Keyed.insert m p.1 p.2).keys ++ ps.map Prod.fst).Nodup := by
      rw [Keyed.keys_insert, if_neg hp, List.append_assoc]
      exact h
    refine (ih hrest).trans ?_
    rw [← hinsert, Keyed.toList_insertNew hp, List.append_assoc]
    rfl

/-- Columns whose folded names are distinct are all kept, in order. -/
theorem values_ofInfos {infos : List ColumnInfo}
    (h : (infos.map fun info => Text.fold info.name).Nodup) : (ofInfos infos).values = infos := by
  have hlist : (ofInfos infos).toList = infos.map fun i => (Text.fold i.name, i) := by
    refine toList_insertAll ?_
    rw [List.map_map]
    exact h
  rw [Keyed.values, hlist, List.map_map]
  exact List.map_id infos

/-- Under its folded name there is each of the columns, if these names are distinct. -/
theorem get?_ofInfos {infos : List ColumnInfo} {info : ColumnInfo}
    (h : (infos.map fun info => Text.fold info.name).Nodup)
    (hi : info ∈ infos) : (ofInfos infos).get? (Text.fold info.name) = some info := by
  rw [← values_ofInfos h] at hi
  obtain ⟨p, hp, rfl⟩ := List.mem_map.1 hi
  rw [← named_ofInfos infos p hp]
  exact Keyed.get?_of_mem hp

theorem named_ofColumns (columns : List ResultColumn) (renames : List String) :
    (ofColumns columns renames).Named := by
  have hall : ∀ (columns : List ResultColumn) (renames : List String) (m : ColumnMap), m.Named →
      (addColumns renames columns m).Named := by
    intro columns
    induction columns with
    | nil => exact fun _ _ h => h
    | cons c cs ih =>
      intro renames m h
      refine ih _ _ fun p hp => ?_
      rcases Keyed.mem_insertNew hp with rfl | hp
      · rfl
      · exact h p hp
  exact hall columns renames .empty named_empty

/-- Columns under their own folded names differ in them. -/
theorem Named.nodup_names {m : ColumnMap} (h : m.Named) :
    (m.values.map fun info => Text.fold info.name).Nodup := by
  have hkeys : m.toList.map Prod.fst = m.values.map fun info => Text.fold info.name := by
    rw [Keyed.values, List.map_map]
    exact List.map_congr_left h
  exact hkeys ▸ m.nodup_keys

/-- The folded names that projected columns are read by from outside, by position. -/
def keysOf (renames : List String) : List ResultColumn → List String
  | [] => []
  | c :: cs => Text.fold (renames.head?.getD c.name) :: keysOf renames.tail cs

/-- What is known of projected columns, under names by position as far as these are
given, else under their own. -/
def renamed (renames : List String) : List ResultColumn → List ColumnInfo
  | [] => []
  | c :: cs => .ofColumn (renames.head?.getD c.name) c :: renamed renames.tail cs

theorem getElem?_renamed (renames : List String) (columns : List ResultColumn) (i : Nat) :
    (renamed renames columns)[i]? = columns[i]?.map fun c =>
      .ofColumn (renames[i]?.getD c.name) c := by
  induction columns generalizing renames i with
  | nil => rfl
  | cons c cs ih =>
    cases i with
    | zero => simp [renamed, List.head?_eq_getElem?]
    | succ i => simp [renamed, ih]

private theorem get?_addColumns (m : ColumnMap) (key : String) (renames : List String)
    (columns : List ResultColumn) : (addColumns renames columns m).get? key =
      (m.get? key).or
        (((keysOf renames columns).idxOf? key).bind fun i => (renamed renames columns)[i]?) := by
  induction columns generalizing renames m with
  | nil => simp [addColumns, keysOf]
  | cons c cs ih =>
    rw [addColumns, ih, Keyed.get?_insertNew, keysOf, List.idxOf?_cons]
    by_cases hk : Text.fold (renames.head?.getD c.name) = key
    · rw [if_pos hk, if_pos (beq_iff_eq.2 hk), hk]
      cases m.get? key <;> rfl
    · rw [if_neg hk, if_neg fun he => hk (eq_of_beq he), Option.bind_map]
      rfl

/-- Under a key there is the first of the columns that are read by it. -/
theorem get?_ofColumns_eq (key : String) (renames : List String) (columns : List ResultColumn) :
    (ofColumns columns renames).get? key =
      ((keysOf renames columns).idxOf? key).bind fun i => (renamed renames columns)[i]? := by
  rw [ofColumns, get?_addColumns, Keyed.get?_empty, Option.none_or]

theorem get?_ofColumns {key : String} {i : Nat} {c : ResultColumn} {renames : List String}
    {columns : List ResultColumn}
    (hi : (keysOf renames columns).idxOf? key = some i) (hc : columns[i]? = some c) :
    ∃ name, (ofColumns columns renames).get? key = some (.ofColumn name c) := by
  rw [get?_ofColumns_eq, hi, Option.bind_some, getElem?_renamed, hc]
  exact ⟨_, rfl⟩

private theorem keys_addColumns (m : ColumnMap) (renames : List String)
    (columns : List ResultColumn) : (addColumns renames columns m).keys =
      (keysOf renames columns).foldl
        (fun keys key => if key ∈ keys then keys else keys ++ [key]) m.keys := by
  induction columns generalizing renames m with
  | nil => rfl
  | cons c cs ih => rw [addColumns, ih, Keyed.keys_insertNew, keysOf, List.foldl_cons]

/-- Columns that are read by the same names are kept under the same keys. -/
theorem keys_ofColumns_congr {renames renames' : List String} {columns columns' : List ResultColumn}
    (h : keysOf renames columns = keysOf renames' columns') :
    (ofColumns columns renames).keys = (ofColumns columns' renames').keys := by
  rw [ofColumns, ofColumns, keys_addColumns, keys_addColumns, h]

private theorem values_addColumns {m : ColumnMap} {renames : List String}
    {columns : List ResultColumn} (h : (m.keys ++ keysOf renames columns).Nodup) :
    (addColumns renames columns m).values = m.values ++ renamed renames columns := by
  induction columns generalizing m renames with
  | nil => simp [addColumns, renamed]
  | cons c cs ih =>
    have hnew : Text.fold (renames.head?.getD c.name) ∉ m.keys := by
      intro hm
      have hdisjoint := (List.nodup_append.1 h).2.2 _ hm _ (List.mem_cons_self)
      exact hdisjoint rfl
    have hlist := Keyed.toList_insertNew hnew (ColumnInfo.ofColumn (renames.head?.getD c.name) c)
    have hkeys :
        (m.insertNew (Text.fold (renames.head?.getD c.name))
          (.ofColumn (renames.head?.getD c.name) c)).keys =
        m.keys ++ [Text.fold (renames.head?.getD c.name)] := by
      rw [Keyed.keys, hlist, List.map_append]
      rfl
    rw [addColumns, ih]
    · rw [Keyed.values, hlist, List.map_append, List.append_assoc]
      rfl
    · rw [hkeys, List.append_assoc]
      exact h

/-- Columns that are read by distinct names are all kept, in order. -/
theorem values_ofColumns {renames : List String} {columns : List ResultColumn}
    (h : (keysOf renames columns).Nodup) :
    (ofColumns columns renames).values = renamed renames columns :=
  values_addColumns (m := .empty) h

end ResultShape.ColumnMap
