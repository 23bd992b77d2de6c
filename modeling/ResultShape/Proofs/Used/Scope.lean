import ResultShape.Proofs.Scope.Columns
import ResultShape.Proofs.Scope.Loading
import ResultShape.Proofs.Used.Column
/-! Scopes of used objects: what entries and bindings hold, and what is read through them,
mentions only what is used. -/
namespace ResultShape

namespace Keyed

variable {κ α : Type} {P : α → Prop} {m : Keyed κ α} {k : κ} {a : α}

/-- Every value has the property. -/
def Each (P : α → Prop) (m : Keyed κ α) : Prop := ∀ p ∈ m.toList, P p.2

theorem Each.empty : Each P (empty : Keyed κ α) := fun _ hp => absurd hp List.not_mem_nil

theorem Each.of_mem_values (h : m.Each P) (ha : a ∈ m.values) : P a := by
  obtain ⟨p, hp, rfl⟩ := List.mem_map.1 ha
  exact h p hp

variable [DecidableEq κ]

theorem Each.insert (h : m.Each P) (k : κ) (ha : P a) : (m.insert k a).Each P := by
  intro p hp
  rcases mem_insert hp with rfl | hp
  · exact ha
  · exact h p hp

theorem Each.insertNew (h : m.Each P) (k : κ) (ha : P a) : (m.insertNew k a).Each P := by
  intro p hp
  rcases mem_insertNew hp with rfl | hp
  · exact ha
  · exact h p hp

theorem Each.erase (h : m.Each P) (k : κ) : (m.erase k).Each P :=
  fun p hp => h p (List.mem_of_mem_filter hp)

theorem Each.get? (h : m.Each P) (ha : m.get? k = some a) : P a := h (k, a) (mem_of_get? ha)

end Keyed

variable {used : Reference → Prop} {catalog : Catalog}

/-- The user-defined types that type references come to are used. -/
def Catalog.TypesUsed (used : Reference → Prop) (catalog : Catalog) : Prop :=
  ∀ t u, (catalog.resolveType t).userType = some u → used (.ofName .userDefinedType u)

/-- What a column of a source mentions is used. -/
def ColumnInfo.MentionsOnly (used : Reference → Prop) (info : ColumnInfo) : Prop :=
  (info.project "" false).MentionsOnly used

def ColumnMap.MentionsOnly (used : Reference → Prop) (m : ColumnMap) : Prop :=
  m.Each (ColumnInfo.MentionsOnly used)

/-- The object that an entry stands for is used, with its catalog and without, and so
is what its columns mention. -/
structure Entry.MentionsOnly (used : Reference → Prop) (e : Entry) : Prop where
  object : ∀ kind, e.objectKind = some kind → ∀ catalog, catalog = none ∨ catalog = e.catalog →
    used ⟨kind, catalog, e.schema, e.name⟩
  columns : ∀ m, e.columns = .known m → m.MentionsOnly used

def ScopeStack.MentionsOnly (used : Reference → Prop) (stack : ScopeStack) : Prop :=
  ∀ s ∈ stack, ∀ e ∈ s.entries, e.MentionsOnly used

namespace ColumnInfo.MentionsOnly

variable {info : ColumnInfo} {c : ResultColumn}

theorem project (h : info.MentionsOnly used) (aliasTable : String) (forceNullable : Bool) :
    (info.project aliasTable forceNullable).MentionsOnly used :=
  ResultColumn.MentionsOnly.of_same h rfl rfl rfl rfl

theorem ofColumn (name : String) (h : c.MentionsOnly used) :
    (ColumnInfo.ofColumn name c).MentionsOnly used :=
  h.of_same rfl rfl rfl rfl

/-- A column without origin whose type is used. -/
theorem ofFacts {u : Option Name} (h : ∀ n, u = some n → used (.ofName .userDefinedType n))
    (name : String) (sqlType : Option SqlType) (isNullable : Option Bool) (json : Option JsonInfo) :
    MentionsOnly used { name, sqlType, userType := u, isNullable, json } :=
  ⟨unmentioned, unmentioned, h, List.forall_mem_nil _⟩

theorem ofRecord (ht : catalog.TypesUsed used) {owner : ColumnSource}
    (ho : ∀ r, owner.object? = some r → used r)
    {reference : Option Reference} (hr : ∀ r, reference = some r → used r) (record : ColumnRecord) :
    MentionsOnly used { ColumnInfo.ofRecord catalog owner record with reference } := by
  refine ⟨hr, ?_, ht ⟨record.type, record.maxLength, record.precision, record.scale⟩,
    List.forall_mem_nil _⟩
  rintro _ ⟨⟩
  exact ho

end ColumnInfo.MentionsOnly

namespace ColumnMap.MentionsOnly

theorem empty : MentionsOnly used .empty := Keyed.Each.empty

theorem ofInfos {infos : List ColumnInfo} (h : ∀ i ∈ infos, i.MentionsOnly used) :
    (ofInfos infos).MentionsOnly used :=
  fun _ hp => h _ (mem_of_mem_ofInfos hp)

theorem ofRecords (ht : catalog.TypesUsed used) {owner : ColumnSource}
    (ho : ∀ r, owner.object? = some r → used r)
    (records : List ColumnRecord) : (ofRecords catalog owner records).MentionsOnly used := by
  refine ofInfos fun i hi => ?_
  obtain ⟨record, -, rfl⟩ := List.mem_map.1 hi
  exact @ColumnInfo.MentionsOnly.ofRecord _ _ ht _ ho none unmentioned record

theorem ofDefinitions (ht : catalog.TypesUsed used) (owner : String)
    (definitions : List ColumnDefinition) :
    (ofDefinitions catalog owner definitions).MentionsOnly used := by
  refine ofInfos fun i hi => ?_
  obtain ⟨d, -, rfl⟩ := List.mem_map.1 hi
  refine ⟨unmentioned, ?_, ht d.type, List.forall_mem_nil _⟩
  rintro _ ⟨⟩ r hr
  cases hr

theorem ofColumns {columns : List ResultColumn} (h : ∀ c ∈ columns, c.MentionsOnly used)
    (renames : List String) : (ofColumns columns renames).MentionsOnly used := by
  have hall (m : ColumnMap) (hm : m.MentionsOnly used) :
      (addColumns renames columns m).MentionsOnly used := by
    induction columns generalizing renames m with
    | nil => exact hm
    | cons c cs ih =>
      obtain ⟨hc, hcs⟩ := List.forall_mem_cons.1 h
      exact ih hcs _ _ (Keyed.Each.insertNew hm _ (ColumnInfo.MentionsOnly.ofColumn _ hc))
  exact hall .empty empty

end ColumnMap.MentionsOnly

namespace Entry.MentionsOnly

variable {e e' : Entry}

theorem markNullable (h : e.MentionsOnly used) : e.markNullable.MentionsOnly used :=
  ⟨h.object, h.columns⟩

theorem aliased (h : e.MentionsOnly used) (aliasName : String) :
    (e.aliased aliasName).MentionsOnly used :=
  ⟨h.object, h.columns⟩

theorem asCte (h : e.MentionsOnly used) : MentionsOnly used { e with isCte := true } :=
  ⟨h.object, h.columns⟩

theorem resolved {columns : Option ColumnMap} (h : ∀ m, columns = some m → m.MentionsOnly used)
    (name : String)
    (aliasName : Option String) : (Entry.resolved name aliasName columns).MentionsOnly used := by
  refine ⟨unmentioned, fun m hm => h m ?_⟩
  cases columns with
  | none => cases hm
  | some columns =>
    cases hm
    rfl

theorem resolved_some {m : ColumnMap} (h : m.MentionsOnly used) (name : String)
    (aliasName : Option String) : (Entry.resolved name aliasName (some m)).MentionsOnly used :=
  resolved (fun _ hm => Option.some.inj hm ▸ h) name aliasName

private theorem owner (h : e.MentionsOnly used) (r : Reference)
    (hr : e.owner.object? = some r) : used r := by
  obtain ⟨kind, hkind, hr⟩ := Option.bind_eq_some_iff.1 hr
  cases hr
  exact h.object kind hkind none (.inl rfl)

theorem load (ht : catalog.TypesUsed used) (h : e.MentionsOnly used) :
    (e.load catalog).MentionsOnly used := by
  refine ⟨h.object, fun m hm => ?_⟩
  simp only [Entry.load, EntryColumns.load] at hm
  split at hm
  · split at hm <;> cases hm
    exact .ofRecords ht h.owner _
  · exact h.columns m hm

theorem of_loaded (ht : catalog.TypesUsed used) (h : e.MentionsOnly used)
    (hl : Entry.Loaded catalog e e') :
    e'.MentionsOnly used := by
  rcases hl with rfl | rfl
  · exact h
  · exact h.load ht

private theorem columnMap? (h : e.MentionsOnly used) {m : ColumnMap} (hm : e.columnMap? = some m) :
    m.MentionsOnly used := by
  unfold Entry.columnMap? at hm
  split at hm
  · rename_i hknown
    cases hm
    exact h.columns _ hknown
  · cases hm

theorem project (h : e.MentionsOnly used) (name : String) : (e.project name).MentionsOnly used := by
  unfold Entry.project
  split
  · rename_i info hi
    obtain ⟨m, hm, hget⟩ := Option.bind_eq_some_iff.1 hi
    exact ((h.columnMap? hm).get? hget).project _ _
  · refine ⟨unmentioned, ?_, unmentioned, List.forall_mem_nil _⟩
    rintro _ ⟨⟩
    exact h.owner

theorem projectAll? (h : e.MentionsOnly used) {columns : List ResultColumn}
    (hc : e.projectAll? = some columns) :
    ∀ c ∈ columns, c.MentionsOnly used := by
  intro c hm
  obtain ⟨m, hmap, rfl⟩ := Option.map_eq_some_iff.1 hc
  obtain ⟨info, hi, rfl⟩ := List.mem_map.1 hm
  exact ((h.columnMap? hmap).of_mem_values hi).project _ _

end Entry.MentionsOnly

namespace ScopeStack.MentionsOnly

variable {stack stack' : ScopeStack} {e : Entry}

theorem nil : MentionsOnly used [] := List.forall_mem_nil _

theorem push (h : stack.MentionsOnly used) : MentionsOnly used ({} :: stack) :=
  List.forall_mem_cons.2 ⟨List.forall_mem_nil _, h⟩

theorem tail (h : stack.MentionsOnly used) : MentionsOnly used stack.tail :=
  fun s hs => h s (List.mem_of_mem_tail hs)

theorem add (h : stack.MentionsOnly used) (he : e.MentionsOnly used) (names : List String) :
    (stack.add e names).MentionsOnly used := by
  have hscope (s : Scope) (hs : ∀ e ∈ s.entries, e.MentionsOnly used) :
      ∀ e' ∈ (s.add e names).entries, e'.MentionsOnly used := by
    intro e' he'
    rcases List.mem_append.1 he' with he' | he'
    · exact hs e' he'
    · cases List.mem_singleton.1 he'
      exact he
  cases stack with
  | nil => exact List.forall_mem_cons.2 ⟨hscope {} (List.forall_mem_nil _), List.forall_mem_nil _⟩
  | cons s rest =>
    obtain ⟨hs, hrest⟩ := List.forall_mem_cons.1 h
    exact List.forall_mem_cons.2 ⟨hscope s hs, hrest⟩

theorem markNullable (h : stack.MentionsOnly used) (first last : Nat) :
    (stack.markNullable first last).MentionsOnly used := by
  cases stack with
  | nil => exact List.forall_mem_nil _
  | cons s rest =>
    obtain ⟨hs, hrest⟩ := List.forall_mem_cons.1 h
    refine List.forall_mem_cons.2 ⟨fun e he => ?_, hrest⟩
    obtain ⟨i, hi, rfl⟩ := List.mem_mapIdx.1 he
    split
    · exact (hs _ (List.getElem_mem hi)).markNullable
    · exact hs _ (List.getElem_mem hi)

theorem of_loaded (ht : catalog.TypesUsed used) (h : stack.MentionsOnly used)
    (hl : Loaded catalog stack stack') :
    stack'.MentionsOnly used := by
  induction hl with
  | nil => exact List.forall_mem_nil _
  | cons hs _ ih =>
    obtain ⟨hscope, hrest⟩ := List.forall_mem_cons.1 h
    refine List.forall_mem_cons.2 ⟨fun e' he' => ?_, ih hrest⟩
    obtain ⟨i, hi, rfl⟩ := List.getElem_of_mem he'
    have hi' := hs.entries.length_eq ▸ hi
    exact (hscope _ (List.getElem_mem hi')).of_loaded ht (hs.entries.get hi' hi)

/-- The rows of a change are those of an entry in scope. -/
theorem entryAt? (h : stack.MentionsOnly used) {i : Nat} (he : stack.entryAt? i = some e) :
    e.MentionsOnly used := by
  obtain ⟨s, hs, he⟩ := Option.bind_eq_some_iff.1 he
  exact h s (List.mem_of_mem_head? hs) e (List.mem_of_getElem? he)

theorem targetReference (h : stack.MentionsOnly used) {r : Reference}
    (hr : Walk.targetReference stack = some r) :
    used r := by
  unfold Walk.targetReference at hr
  simp only [Option.bind_eq_bind, Option.bind_eq_some_iff] at hr
  obtain ⟨s, hs, _, _, i, _, e, he, kind, hkind, hr⟩ := hr
  cases hr
  exact (h s (List.mem_of_mem_head? hs) e (List.mem_of_getElem? he)).object kind hkind _ (.inr rfl)

private theorem through {es : List Entry} (h : ∀ e ∈ es, e.MentionsOnly used) {name : String}
    {c : ResultColumn} (hc : ColumnLookup.through name es = .found c) : c.MentionsOnly used := by
  unfold ColumnLookup.through at hc
  split at hc <;> cases hc
  exact (h _ List.mem_cons_self).project name

private theorem lookupQualified (ht : catalog.TypesUsed used) (h : stack.MentionsOnly used)
    {qualifier name : String}
    {c : ResultColumn}
    (hc : (ScopeStack.lookupQualified catalog qualifier name stack).1 = .found c) :
    c.MentionsOnly used := by
  induction stack with
  | nil => cases hc
  | cons s rest ih =>
    obtain ⟨hs, hrest⟩ := List.forall_mem_cons.1 h
    unfold ScopeStack.lookupQualified at hc
    split at hc
    · rename_i i _
      have hloaded : MentionsOnly used [s.loadAt catalog i] :=
        of_loaded ht (List.forall_mem_singleton.2 hs) (.cons (s.loaded_loadAt i) .nil)
      refine through (fun e he => ?_) hc
      exact hloaded _ List.mem_cons_self e (List.mem_of_getElem? (Option.mem_toList.1 he))
    · exact ih hrest hc

/-- The entries that list a name are among those of the scopes, with their columns looked up. -/
private theorem owners (ht : catalog.TypesUsed used) (h : stack.MentionsOnly used) (name : String) :
    ∀ e ∈ (ScopeStack.owners catalog name stack).1, e.MentionsOnly used := by
  induction stack with
  | nil => exact List.forall_mem_nil _
  | cons s rest ih =>
    obtain ⟨hs, hrest⟩ := List.forall_mem_cons.1 h
    unfold ScopeStack.owners
    dsimp only
    split
    · exact ih hrest
    · intro e he
      obtain ⟨e', he', rfl⟩ := List.mem_map.1 (List.mem_of_mem_filter he)
      exact (hs e' he').load ht

/-- A column that a reference finds is read through an entry of the scopes. -/
theorem lookup (ht : catalog.TypesUsed used) (h : stack.MentionsOnly used) {ref : ColumnRef}
    {c : ResultColumn}
    (hc : (ScopeStack.lookup catalog ref stack).1 = .found c) : c.MentionsOnly used := by
  unfold ScopeStack.lookup at hc
  split at hc
  · exact lookupQualified ht h hc
  · have hloaded :
        ((ScopeStack.lookup catalog ⟨ref.schema, none, ref.name⟩ stack).2).MentionsOnly used :=
      h.of_loaded ht (loaded_lookup _ stack)
    have howners := owners ht h ref.name
    unfold ScopeStack.lookup lookupUnqualified at hloaded
    unfold lookupUnqualified at hc
    dsimp only at hloaded
    generalize ScopeStack.owners catalog ref.name stack = p at hc hloaded howners
    obtain ⟨found, stack'⟩ := p
    cases found with
    | nil =>
      refine through (fun e he => ?_) hc
      cases stack' with
      | nil => cases he
      | cons s rest => exact hloaded s List.mem_cons_self e (List.mem_of_mem_filter he)
    | cons e es => exact through howners hc

/-- The columns that a star stands for are read through entries of the scopes. -/
theorem expand (ht : catalog.TypesUsed used) (h : stack.MentionsOnly used)
    {qualifier : Option String}
    {columns : List ResultColumn}
    (hc : (ScopeStack.expand catalog qualifier stack).1 = some columns) :
    ∀ c ∈ columns, c.MentionsOnly used := by
  cases stack with
  | nil => cases hc
  | cons s rest =>
    have hload : ∀ e ∈ (s.load catalog).entries, e.MentionsOnly used := by
      intro e he
      obtain ⟨e', he', rfl⟩ := List.mem_map.1 he
      exact (h s List.mem_cons_self e' he').load ht
    cases qualifier with
    | some qualifier =>
      simp only [ScopeStack.expand] at hc
      split at hc
      · rename_i i _
        obtain ⟨e, he, hc⟩ := Option.bind_eq_some_iff.1 hc
        have hentry : (s.load catalog).entries[i]? = some e := by
          simpa [Scope.load, Scope.loadAt] using he
        exact (hload e (List.mem_of_getElem? hentry)).projectAll? hc
      · cases hc
    | none =>
      simp only [ScopeStack.expand, expandAll] at hc
      split at hc
      · cases hc
      · cases hc
        intro c hc
        obtain ⟨columns, hcolumns, hc⟩ := List.mem_flatten.1 hc
        obtain ⟨e, he, hall⟩ := List.mem_filterMap.1 hcolumns
        exact (hload e he).projectAll? hall c hc

end ScopeStack.MentionsOnly

end ResultShape
