import ResultShape.Proofs.Scope.Loading
/-! Origins: through which entry of the innermost scope a column is read, said of scopes with all
columns looked up and without looking anything up on the way. -/
namespace ResultShape

/-- An entry of the innermost scope, by its position, and the folded name of one of its columns. -/
structure Origin where
  entry : Nat
  key : String

/-- The position of the only entry with a property. -/
def Entry.only (p : Entry → Bool) (es : List Entry) : Option Nat :=
  match es.zipIdx.filter fun x => p x.1 with
  | [x] => some x.2
  | _ => none

theorem Entry.filter_of_only {p : Entry → Bool} {es : List Entry} {k : Nat}
    (h : Entry.only p es = some k) :
    ∃ e, es[k]? = some e ∧ es.filter p = [e] := by
  unfold Entry.only at h
  split at h
  · rename_i x hx
    obtain ⟨e, j⟩ := x
    cases h
    have hm : (e, j) ∈ es.zipIdx.filter fun x => p x.1 := hx ▸ List.mem_singleton_self _
    refine ⟨e, List.mem_zipIdx_iff_getElem?.1 (List.mem_of_mem_filter hm), ?_⟩
    have hmap : (es.zipIdx.map Prod.fst).filter p = [e] := by
      rw [List.filter_map]
      exact congrArg (List.map Prod.fst) hx
    rwa [List.zipIdx_map_fst] at hmap
  · cases h

/-- What is known of a column, its names aside. -/
def ResultColumn.unnamed (c : ResultColumn) : ResultColumn :=
  { c with name := "", aliasName := none }

/-- A column is that of an entry under a key: one that the entry lists, or one of
which only the name is known. -/
inductive Entry.Reads (e : Entry) (key : String) (c : ResultColumn) : Prop where
  | listed {info : ColumnInfo} (h : e.columnMap?.bind (·.get? key) = some info)
    (hc : c.unnamed = (info.project e.visibleName e.forceNullable).unnamed)
  | unlisted {name : String} (h : e.columnMap?.bind (·.get? key) = none) (hk : Text.fold name = key)
    (hc : c.unnamed = (e.project name).unnamed)

namespace Entry.Reads

variable {e : Entry} {key : String} {c c' : ResultColumn}

theorem of_unnamed_eq (h : e.Reads key c) (hc : c'.unnamed = c.unnamed) : e.Reads key c' := by
  cases h with
  | listed h h₁ => exact .listed h (hc.trans h₁)
  | unlisted h hk h₁ => exact .unlisted h hk (hc.trans h₁)

theorem project (e : Entry) (name : String) : e.Reads (Text.fold name) (e.project name) := by
  cases h : e.columnMap?.bind (·.get? (Text.fold name)) with
  | none => exact .unlisted h rfl rfl
  | some info =>
    refine .listed h ?_
    rw [Entry.project, column?, h]

private theorem project_unlisted {name : String}
    (h : e.columnMap?.bind (·.get? (Text.fold name)) = none) :
    e.project name =
      { name
        aliasTable := some e.visibleName
        source := some { e.owner with column := some name }
        isNullable := if e.forceNullable then some true else none } := by
  rw [Entry.project, column?, h]

theorem isNullable_eq (h : e.Reads key c) : c.isNullable =
    if e.forceNullable then some true
    else (e.columnMap?.bind (·.get? key)).bind (·.isNullable) := by
  cases h with
  | listed h hc =>
    rw [h]
    exact congrArg ResultColumn.isNullable hc
  | unlisted h hk hc =>
    subst hk
    rw [project_unlisted h] at hc
    rw [h]
    exact congrArg ResultColumn.isNullable hc

/-- The source is that of the listed column, or else the entry itself with a
name that it does not list. -/
theorem source_eq (h : e.Reads key c) :
    (∃ info, e.columnMap?.bind (·.get? key) = some info ∧ c.source = info.source) ∨
      ∃ name, c.source = some { e.owner with column := some name } := by
  cases h with
  | @listed info h hc => exact .inl ⟨info, h, congrArg ResultColumn.source hc⟩
  | @unlisted name h hk hc =>
    subst hk
    rw [project_unlisted h] at hc
    exact .inr ⟨name, congrArg ResultColumn.source hc⟩

end Entry.Reads

namespace ScopeStack

/-- The entries of the innermost scope. -/
def entries (stack : ScopeStack) : List Entry := stack.head?.elim [] (·.entries)

/-- The entry of the innermost scope that a reference is read through, if it is read through one of
that scope. The columns of all entries are looked up. -/
def owner? (ref : ColumnRef) : ScopeStack → Option Nat
  | [] => none
  | s :: rest =>
    match ref.qualifier with
    | some qualifier => s.index? (ref.schema.elim qualifier (· ++ "." ++ qualifier))
    | none =>
      if s.entries.any (·.hasColumn ref.name) then Entry.only (·.hasColumn ref.name) s.entries
      else if rest.any fun s => s.entries.any (·.hasColumn ref.name) then none
      else Entry.only (·.columnMap?.isNone) s.entries

/-- The origins of the columns that a star stands for; a column that stands
for the star itself has none. -/
def starOrigins (qualifier : Option String) (stack : ScopeStack) : List (Option Origin) :=
  let origins (x : Entry × Nat) : Option (List (Option Origin)) :=
    x.1.columnMap?.map fun columns => columns.keys.map fun key => some ⟨x.2, key⟩
  match qualifier with
  | none =>
    match stack.entries.zipIdx.filterMap origins with
    | [] => [none]
    | found => found.flatten
  | some qualifier =>
    let owner := stack.head?.bind (·.index? qualifier)
    (owner.bind fun k => stack.entries[k]?.bind fun e => origins (e, k)).getD [none]

/-- A column is read from its origin. The columns of all entries are looked up. -/
def ReadFrom (stack : ScopeStack) (o : Option Origin) (c : ResultColumn) : Prop :=
  ∀ k key e, o = some ⟨k, key⟩ → stack.entries[k]? = some e → e.Reads key c

variable {catalog : Catalog} {stack : ScopeStack}

theorem entries_load (stack : ScopeStack) :
    (stack.load catalog).entries = stack.entries.map (.load catalog) := by
  cases stack <;> rfl

private theorem filter_hasColumn_eq_nil {es : List Entry} {name : String}
    (h : es.any (·.hasColumn name) = false) :
    es.filter (·.hasColumn name) = [] := by
  rw [List.any_eq_false] at h
  exact List.filter_eq_nil_iff.2 h

/-- Where no scope lists a name, all of them are loaded and none owns it. -/
private theorem owners_of_not_listed {name : String} {stack : ScopeStack}
    (h : (stack.load catalog).any (fun s => s.entries.any (·.hasColumn name)) = false) :
    owners catalog name stack = ([], stack.load catalog) := by
  induction stack with
  | nil => rfl
  | cons s rest ih =>
    simp only [load, List.map_cons, List.any_cons, Bool.or_eq_false_iff] at h ih
    unfold owners
    dsimp only
    rw [filter_hasColumn_eq_nil h.1, ih h.2]
    rfl

private theorem lookup_of_qualified {ref : ColumnRef} {qualifier : String} {k : Nat} {s : Scope}
    {rest : ScopeStack}
    (hq : ref.qualifier = some qualifier)
    (h : s.index? (ref.schema.elim qualifier (· ++ "." ++ qualifier)) = some k)
    {e : Entry} (he : (s.load catalog).entries[k]? = some e) :
    (lookup catalog ref (s :: rest)).1 = .found (e.project ref.name) := by
  have hload : (s.loadAt catalog k).entries[k]? = some e := by
    simpa [Scope.load, Scope.loadAt, List.getElem?_modify] using he
  simp only [lookup, hq, lookupQualified, h, hload]
  rfl

/-- A reference that has an owner in the innermost scope is found, and read from it. -/
theorem lookup_of_owner {ref : ColumnRef} {k : Nat} (h : (stack.load catalog).owner? ref = some k)
    {e : Entry} (he : (stack.load catalog).entries[k]? = some e) :
    (lookup catalog ref stack).1 = .found (e.project ref.name) := by
  cases stack with
  | nil => cases h
  | cons s rest =>
    change (s.load catalog).entries[k]? = some e at he
    simp only [load, List.map_cons, owner?] at h
    cases hq : ref.qualifier with
    | some qualifier =>
      rw [hq] at h
      have hs : s.index? (ref.schema.elim qualifier (· ++ "." ++ qualifier)) = some k := h
      exact lookup_of_qualified hq hs he
    | none =>
      simp only [hq] at h
      simp only [lookup, hq, lookupUnqualified]
      split at h
      · obtain ⟨e', he', hf⟩ := Entry.filter_of_only h
        obtain rfl : e = e' := Option.some.inj (he.symm.trans he')
        simp only [owners, hf]
        rfl
      · split at h
        · cases h
        · rename_i hown hrest
          obtain ⟨e', he', hf⟩ := Entry.filter_of_only h
          obtain rfl : e = e' := Option.some.inj (he.symm.trans he')
          have hnone : (ScopeStack.load catalog (s :: rest)).any
              (fun s => s.entries.any (·.hasColumn ref.name)) = false := by
            simp only [load, List.map_cons, List.any_cons, Bool.or_eq_false_iff]
            exact ⟨by simpa using hown, by simpa using hrest⟩
          rw [owners_of_not_listed hnone]
          change ColumnLookup.through ref.name
            ((s.load catalog).entries.filter (·.columnMap?.isNone)) = _
          rw [hf]
          rfl

theorem readFrom_none (c : ResultColumn) : ReadFrom stack none c := fun _ _ _ h => nomatch h

/-- A found column is read from the owner of the reference, if that is in the innermost scope. -/
theorem readFrom_lookup {ref : ColumnRef} {c : ResultColumn}
    (h : (lookup catalog ref stack).1 = .found c) :
    ReadFrom (stack.load catalog)
      (((stack.load catalog).owner? ref).map fun k => ⟨k, Text.fold ref.name⟩) c := by
  cases ho : (stack.load catalog).owner? ref with
  | none => exact readFrom_none c
  | some k =>
    intro k' key e hk he
    cases hk
    have hc := h.symm.trans (lookup_of_owner ho he)
    cases hc
    exact .project e ref.name

private theorem readFrom_all {e : Entry} {k : Nat} {m : ColumnMap} (h : stack.entries[k]? = some e)
    (hm : e.columnMap? = some m) :
    List.Forall₂ (ReadFrom stack) (m.keys.map fun key => some ⟨k, key⟩)
      (m.values.map (·.project e.visibleName e.forceNullable)) := by
  rw [Keyed.keys, Keyed.values, List.map_map, List.map_map, List.forall₂_map_left_iff,
    List.forall₂_map_right_iff]
  refine List.forall₂_same.2 fun p hp k' key e' ho he' => ?_
  cases ho
  obtain rfl : e = e' := Option.some.inj (h.symm.trans he')
  refine .listed ?_ rfl
  rw [hm, Option.bind_some, Keyed.get?_of_mem hp]

/-- The columns of a star that stands for every entry whose columns are known. -/
private theorem readFrom_entries (stack : ScopeStack) (l : List (Entry × Nat))
    (h : ∀ x ∈ l, stack.entries[x.2]? = some x.1) :
    List.Forall₂ (List.Forall₂ (ReadFrom stack))
      (l.filterMap fun x => x.1.columnMap?.map fun m => m.keys.map fun key => some ⟨x.2, key⟩)
      ((l.map Prod.fst).filterMap Entry.projectAll?) := by
  induction l with
  | nil => exact .nil
  | cons x l ih =>
    obtain ⟨e, k⟩ := x
    have hrest := ih fun y hy => h y (List.mem_cons_of_mem _ hy)
    simp only [List.map_cons, List.filterMap_cons, Entry.projectAll?]
    cases hm : e.columnMap? with
    | none => exact hrest
    | some m => exact .cons (readFrom_all (h (e, k) List.mem_cons_self) hm) hrest

private theorem readFrom_flatten {os : List (List (Option Origin))} {cs : List (List ResultColumn)}
    (h : List.Forall₂ (List.Forall₂ (ReadFrom stack)) os cs) :
    List.Forall₂ (ReadFrom stack) os.flatten cs.flatten := by
  induction h with
  | nil => exact .nil
  | cons h _ ih => exact List.rel_append h ih

/-- The columns of a star are read from their origins; where nothing is known,
it stays one column without. -/
theorem readFrom_expand (qualifier : Option String) (star : ResultColumn) :
    List.Forall₂ (ReadFrom (stack.load catalog)) ((stack.load catalog).starOrigins qualifier)
      ((expand catalog qualifier stack).1.getD [star]) := by
  have hnone : List.Forall₂ (ReadFrom (stack.load catalog)) [none] [star] :=
    .cons (readFrom_none star) .nil
  cases qualifier with
  | none =>
    cases stack with
    | nil => exact hnone
    | cons s rest =>
      have hall :=
        readFrom_entries (ScopeStack.load catalog (s :: rest)) (s.load catalog).entries.zipIdx
        fun x hx => List.mem_zipIdx_iff_getElem?.1 hx
      rw [List.zipIdx_map_fst] at hall
      have hentries :
          (ScopeStack.load catalog (s :: rest)).entries = (s.load catalog).entries := rfl
      simp only [starOrigins, hentries, expand, expandAll]
      generalize List.filterMap _ (s.load catalog).entries.zipIdx = os at hall ⊢
      generalize (s.load catalog).entries.filterMap Entry.projectAll? = cs at hall ⊢
      cases hall with
      | nil => exact hnone
      | cons h hs => exact readFrom_flatten (.cons h hs)
  | some qualifier =>
    cases stack with
    | nil => exact hnone
    | cons s rest =>
      have hindex : (s.load catalog).index? qualifier = s.index? qualifier := rfl
      have hhead : (ScopeStack.load catalog (s :: rest)).head? = some (s.load catalog) := rfl
      simp only [starOrigins, hhead, Option.bind_some, hindex, expand]
      cases hk : s.index? qualifier with
      | none => exact hnone
      | some k =>
        have hload : (s.loadAt catalog k).entries[k]? = (s.load catalog).entries[k]? := by
          simp [Scope.load, Scope.loadAt]
        have hentries :
            (ScopeStack.load catalog (s :: rest)).entries = (s.load catalog).entries := rfl
        simp only [Option.bind_some, hload, hentries]
        cases he : (s.load catalog).entries[k]? with
        | none => exact hnone
        | some e =>
          simp only [Option.bind_some, Entry.projectAll?]
          cases hm : e.columnMap? with
          | none => exact hnone
          | some m => exact readFrom_all he hm

end ScopeStack

end ResultShape
