import ResultShape.Proofs.Scope.Columns
import ResultShape.Proofs.Scope.Loading
/-! Laziness: when the columns of a table are looked up is never seen in an answer of the
scopes, and which entries an unqualified name is read through is settled by what the entries
list, whatever was asked before. -/
namespace ResultShape

/-- One operation on a stack of scopes. -/
inductive ScopeOp where
  | push
  | pop
  | add (entry : Entry) (names : List String)
  | markNullable (first last : Nat)
  | lookup (ref : ColumnRef)
  | expand (qualifier : Option String)

/-- What an operation answers; one that only changes the stack answers nothing. -/
inductive ScopeAnswer where
  | nothing
  | column (found : ColumnLookup)
  | columns (found : Option (List ResultColumn))

namespace ScopeOp

variable (catalog : Catalog)

def run : ScopeOp → ScopeStack → ScopeAnswer × ScopeStack
  | .push, stack => (.nothing, {} :: stack)
  | .pop, stack => (.nothing, stack.tail)
  | .add entry names, stack => (.nothing, stack.add entry names)
  | .markNullable first last, stack => (.nothing, stack.markNullable first last)
  | .lookup ref, stack => ((stack.lookup catalog ref).map .column id)
  | .expand qualifier, stack => ((stack.expand catalog qualifier).map .columns id)

/-- The answers of operations that follow one another, and the stack behind the last. -/
def runAll : List ScopeOp → ScopeStack → List ScopeAnswer × ScopeStack
  | [], stack => ([], stack)
  | op :: ops, stack =>
    let (answer, stack) := op.run catalog stack
    (runAll ops stack).map (answer :: ·) id

/-- The same operation, but an entry is added with its columns looked up. -/
def eager : ScopeOp → ScopeOp
  | .add entry names => .add (entry.load catalog) names
  | op => op

end ScopeOp

namespace Entry

variable (catalog : Catalog) (e : Entry)

/-- The folded names of the columns of an entry, known by itself or to the catalog. -/
def listed? : Option (List String) :=
  match e.columns with
  | .pending table => (catalog.tableColumns? table).map (·.map fun r => Text.fold r.name)
  | .unknown => none
  | .known columns => some columns.keys

/-- The entry lists a column of this name. -/
def lists (name : String) : Bool := (e.listed? catalog).any (·.contains (Text.fold name))

variable {catalog e}

/-- What is known of the columns once they are looked up. -/
private theorem columnMap?_load :
    (e.load catalog).columnMap? =
      match e.columns with
      | .pending table => (catalog.tableColumns? table).map (.ofRecords catalog e.owner)
      | .unknown => none
      | .known columns => some columns := by
  unfold columnMap? load
  cases e.columns with
  | pending table => cases h : catalog.tableColumns? table <;> simp [EntryColumns.load, h]
  | unknown => rfl
  | known columns => rfl

private theorem keys_columnMap?_load (key : String) :
    (e.load catalog).columnMap?.any (·.keys.contains key) =
      (e.listed? catalog).any (·.contains key) := by
  rw [columnMap?_load, listed?]
  cases e.columns with
  | pending table =>
    dsimp only
    cases catalog.tableColumns? table with
    | none => rfl
    | some records =>
      rw [Option.map_some, Option.map_some, Option.any_some, Option.any_some, Bool.eq_iff_iff,
        List.contains_iff_mem, List.contains_iff_mem, ColumnMap.ofRecords,
        ColumnMap.mem_keys_ofInfos]
      simp [ColumnInfo.ofRecord]
  | unknown => rfl
  | known columns => rfl

theorem hasColumn_load (name : String) :
    (e.load catalog).hasColumn name = e.lists catalog name := by
  rw [lists, ← keys_columnMap?_load, hasColumn, column?]
  cases (e.load catalog).columnMap? with
  | none => rfl
  | some columns =>
    rw [Bool.eq_iff_iff, Option.any_some, List.contains_iff_mem]
    exact Keyed.contains_iff

theorem isNone_columnMap?_load :
    (e.load catalog).columnMap?.isNone = (e.listed? catalog).isNone := by
  rw [columnMap?_load, listed?]
  cases e.columns with
  | pending table => exact Option.isNone_map.trans Option.isNone_map.symm
  | unknown => rfl
  | known columns => rfl

end Entry

namespace Scope

/-- Some entry of the scope lists a column of this name. -/
def lists (catalog : Catalog) (name : String) (s : Scope) : Bool :=
  s.entries.any (·.lists catalog name)

theorem load_load (catalog : Catalog) (s : Scope) :
    (s.load catalog).load catalog = s.load catalog :=
  s.loaded_load.load_eq

variable {catalog : Catalog} {s : Scope}

private theorem loadAt_load (i : Nat) : (s.load catalog).loadAt catalog i = s.load catalog := by
  have hentries : (s.load catalog).entries.modify i (.load catalog) = (s.load catalog).entries := by
    apply List.ext_getElem? fun j => ?_
    rw [List.getElem?_modify]
    simp only [load, List.getElem?_map]
    cases s.entries[j]? <;> simp [Entry.load_load]
  rw [loadAt, hentries]

private theorem getElem?_loadAt (i : Nat) :
    (s.loadAt catalog i).entries[i]? = (s.load catalog).entries[i]? := by
  simp [load, loadAt]

end Scope

namespace ScopeStack

variable {catalog : Catalog} {stack : ScopeStack}

theorem lookupQualified_load (qualifier name : String) :
    lookupQualified catalog qualifier name (stack.load catalog) =
      ((lookupQualified catalog qualifier name stack).1, stack.load catalog) := by
  induction stack with
  | nil => rfl
  | cons s rest ih =>
    have hindex : (s.load catalog).index? qualifier = s.index? qualifier := rfl
    simp only [load, List.map_cons] at ih ⊢
    simp only [lookupQualified, hindex]
    split
    · simp only [Scope.loadAt_load, Scope.getElem?_loadAt]
    · rw [ih]

theorem owners_load (name : String) :
    owners catalog name (stack.load catalog) =
      ((owners catalog name stack).1, stack.load catalog) := by
  induction stack with
  | nil => rfl
  | cons s rest ih =>
    simp only [load, List.map_cons] at ih ⊢
    simp only [owners, Scope.load_load]
    split
    · rw [ih]
    · rfl

/-- A name that no scope lists has every entry loaded that may own it. -/
theorem load_of_owners_eq_nil {name : String} (h : (owners catalog name stack).1 = []) :
    (owners catalog name stack).2 = stack.load catalog := by
  induction stack with
  | nil => rfl
  | cons s rest ih =>
    unfold owners at h ⊢
    dsimp only at h ⊢
    split at h
    · rename_i hs
      rw [ih h]
      rfl
    · contradiction

/-- A look-up in loaded scopes finds the same and has nothing to load. -/
theorem lookup_load (ref : ColumnRef) :
    lookup catalog ref (stack.load catalog) =
      ((lookup catalog ref stack).1, stack.load catalog) := by
  unfold lookup
  split
  · exact lookupQualified_load _ _
  · unfold lookupUnqualified
    rw [owners_load]
    cases hfound : owners catalog ref.name stack with
    | mk found loaded =>
      cases found with
      | nil =>
        have hload := load_of_owners_eq_nil (congrArg Prod.fst hfound)
        rw [hfound] at hload
        dsimp only at hload ⊢
        rw [hload]
      | cons => rfl

/-- A star over loaded scopes stands for the same columns and has nothing to load. -/
theorem expand_load (qualifier : Option String) :
    expand catalog qualifier (stack.load catalog) =
      ((expand catalog qualifier stack).1, stack.load catalog) := by
  cases stack with
  | nil => rfl
  | cons s rest =>
    have hindex (name : String) : (s.load catalog).index? name = s.index? name := rfl
    simp only [load, List.map_cons]
    cases qualifier with
    | none => simp only [expand, Scope.load_load]
    | some qualifier =>
      simp only [expand, hindex]
      split
      · simp only [Scope.loadAt_load, Scope.getElem?_loadAt]
      · rfl

private theorem add_load (e : Entry) (names : List String) :
    (stack.load catalog).add (e.load catalog) names = (stack.add e names).load catalog := by
  cases stack <;> simp [add, modifyInnermost, load, Scope.add, Scope.load]

private theorem markNullable_load (first last : Nat) :
    (stack.load catalog).markNullable first last =
      (stack.markNullable first last).load catalog := by
  cases stack with
  | nil => rfl
  | cons s rest =>
    have hmark (e : Entry) : (e.load catalog).markNullable = e.markNullable.load catalog := rfl
    simp only [markNullable, load, List.map_cons, Scope.markNullable, Scope.load]
    congr 2
    apply List.ext_getElem? fun i => ?_
    simp only [List.getElem?_mapIdx, List.getElem?_map, Option.map_map]
    congr 1
    funext e
    simp only [Function.comp, hmark, apply_ite (Entry.load catalog)]

end ScopeStack

namespace ScopeOp

variable {catalog : Catalog} {stack : ScopeStack}

/-- An operation answers the same over loaded scopes, and the scopes that it
leaves are the loaded ones again. -/
theorem run_eager (op : ScopeOp) :
    (op.eager catalog).run catalog (stack.load catalog) =
      ((op.run catalog stack).1, (op.run catalog stack).2.load catalog) := by
  cases op with
  | push => rfl
  | pop => simp [eager, run, ScopeStack.load, List.map_tail]
  | add e names => exact congrArg (Prod.mk _) (ScopeStack.add_load e names)
  | markNullable first last => exact congrArg (Prod.mk _) (ScopeStack.markNullable_load first last)
  | lookup ref =>
    simp only [eager, run, ScopeStack.lookup_load, Prod.map, id]
    rw [(ScopeStack.loaded_lookup ref stack).load_eq]
  | expand qualifier =>
    simp only [eager, run, ScopeStack.expand_load, Prod.map, id]
    rw [(ScopeStack.loaded_expand qualifier stack).load_eq]

theorem runAll_eager (ops : List ScopeOp) :
    runAll catalog (ops.map (eager catalog)) (stack.load catalog) =
      ((runAll catalog ops stack).1, (runAll catalog ops stack).2.load catalog) := by
  induction ops generalizing stack with
  | nil => rfl
  | cons op ops ih => simp only [List.map_cons, runAll, run_eager, ih, Prod.map, id]

end ScopeOp

namespace ScopeStack

variable {catalog : Catalog} {name : String} {stack : ScopeStack}

/-- The entries that compete for an unqualified name: those that list it in the innermost scope
where one does, and where none does, those of the innermost scope whose columns nobody knows. -/
def contenders (catalog : Catalog) (name : String) (stack : ScopeStack) : List Entry :=
  match stack.find? (Scope.lists catalog name) with
  | some s => s.entries.filter (·.lists catalog name)
  | none => (stack.head?.elim [] (·.entries)).filter fun e => (e.listed? catalog).isNone

private theorem filter_hasColumn_load (es : List Entry) (name : String) :
    (es.map (Entry.load catalog)).filter (·.hasColumn name) =
      (es.filter (·.lists catalog name)).map (Entry.load catalog) := by
  rw [List.filter_map]
  congr 1
  exact List.filter_congr fun e _ => Entry.hasColumn_load name

/-- The entries found are those of the innermost scope that has some. -/
private theorem owners_eq :
    (owners catalog name stack).1 = ((stack.find? (Scope.lists catalog name)).elim []
      (·.entries.filter (·.lists catalog name))).map (Entry.load catalog) := by
  induction stack with
  | nil => rfl
  | cons s rest ih =>
    simp only [owners, Scope.load, filter_hasColumn_load]
    cases hs : s.entries.filter (·.lists catalog name) with
    | nil =>
      have hnone : ¬s.lists catalog name = true := by
        simpa [Scope.lists, List.filter_eq_nil_iff] using hs
      rw [List.find?_cons_of_neg hnone]
      exact ih
    | cons e es =>
      have he : e ∈ s.entries.filter (·.lists catalog name) := hs ▸ List.mem_cons_self
      have hsome : s.lists catalog name = true :=
        List.any_eq_true.2 ⟨e, (List.mem_filter.1 he).1, (List.mem_filter.1 he).2⟩
      rw [List.find?_cons_of_pos hsome, Option.elim_some, hs]
      rfl

private theorem unknown_load (stack : ScopeStack) :
    unknown (stack.load catalog) =
      ((stack.head?.elim [] (·.entries)).filter fun e => (e.listed? catalog).isNone).map
        (Entry.load catalog) := by
  have hentries : (stack.load catalog).head?.elim [] (·.entries) =
      (stack.head?.elim [] (·.entries)).map (Entry.load catalog) := by cases stack <;> rfl
  rw [unknown, hentries, List.filter_map]
  congr 1
  exact List.filter_congr fun e _ => Entry.isNone_columnMap?_load

/-- An unqualified name is read through the entry that competes for it alone. -/
private theorem lookupUnqualified_eq :
    (lookupUnqualified catalog name stack).1 =
      .through name ((contenders catalog name stack).map (Entry.load catalog)) := by
  have howners := @owners_eq catalog name stack
  unfold contenders
  cases hfind : stack.find? (Scope.lists catalog name) with
  | none =>
    -- the search has gone through all scopes by now, and so all entries are loaded where those of
    -- the first are asked
    rw [hfind, Option.elim_none, List.map_nil] at howners
    have hload := load_of_owners_eq_nil howners
    unfold lookupUnqualified
    generalize owners catalog name stack = p at howners hload
    obtain ⟨found, loaded⟩ := p
    subst howners hload
    exact congrArg (ColumnLookup.through name) (unknown_load stack)
  | some s =>
    rw [hfind, Option.elim_some] at howners
    have hs : s.lists catalog name = true := List.find?_some hfind
    obtain ⟨e, he, hlists⟩ := List.any_eq_true.1 hs
    have hne : s.entries.filter (·.lists catalog name) ≠ [] :=
      List.ne_nil_of_mem (List.mem_filter.2 ⟨he, hlists⟩)
    unfold lookupUnqualified
    generalize owners catalog name stack = p at howners
    obtain ⟨found, loaded⟩ := p
    subst howners
    split
    · rename_i hnil
      exact absurd (congrArg Prod.fst hnil) (by simpa using hne)
    · rename_i hfound
      cases hfound
      rfl

/-- Loading on demand is not observable. Whatever operations are made on the scopes, they answer as
if the columns of every entry had been looked up when it was added. After any of them an unqualified
name is found if exactly one entry competes for it, and then read through that one; it is ambiguous
if several do, and unresolved if none does. -/
theorem lazy_loading_unobservable (catalog : Catalog) (ops : List ScopeOp) :
    (ScopeOp.runAll catalog ops []).1 = (ScopeOp.runAll catalog (ops.map (.eager catalog)) []).1 ∧
      ∀ (schema : Option String) (name : String),
        (lookup catalog ⟨schema, none, name⟩ (ScopeOp.runAll catalog ops []).2).1 =
          match contenders catalog name (ScopeOp.runAll catalog ops []).2 with
          | [] => .unresolved
          | [e] => .found ((e.load catalog).project name)
          | _ => .ambiguous := by
  constructor
  · have h := @ScopeOp.runAll_eager catalog [] ops
    exact (congrArg Prod.fst h).symm
  · intro schema name
    refine lookupUnqualified_eq.trans ?_
    generalize contenders catalog name _ = es
    match es with
    | [] => rfl
    | [_] => rfl
    | _ :: _ :: _ => rfl

end ScopeStack

end ResultShape
