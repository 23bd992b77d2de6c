import ResultShape.Scope.Entry
/-! Scopes: the sources visible at one query level, and the stack of levels
that a name is sought in. -/
namespace ResultShape

/-- The entries of one query level, and the folded names each is found by. -/
structure Scope where
  keys : Keyed String Nat := .empty
  entries : List Entry := []
  deriving Inhabited

namespace Scope

/-- Adds an entry under names; a name that is taken stays with its first owner. -/
def add (s : Scope) (e : Entry) (names : List String) : Scope :=
  { keys := names.foldl (fun keys name => keys.insertNew (Text.fold name) s.entries.length) s.keys
    entries := s.entries ++ [e] }

/-- The position of the entry that a name belongs to. -/
def index? (s : Scope) (name : String) : Option Nat := s.keys.get? (Text.fold name)

/-- Marks the entries from one position up to, and without, another. -/
def markNullable (s : Scope) (first last : Nat) : Scope :=
  { s with
    entries := s.entries.mapIdx fun i e => if first ≤ i ∧ i < last then e.markNullable else e }

def loadAt (catalog : Catalog) (s : Scope) (i : Nat) : Scope :=
  { s with entries := s.entries.modify i (.load catalog) }

def load (catalog : Catalog) (s : Scope) : Scope :=
  { s with entries := s.entries.map (.load catalog) }

end Scope

/-- What a column reference comes to. -/
inductive ColumnLookup where
  | found (column : ResultColumn)
  | ambiguous
  | unresolved

/-- The one entry of several that a column is read through. -/
def ColumnLookup.through (name : String) : List Entry → ColumnLookup
  | [] => .unresolved
  | [e] => .found (e.project name)
  | _ => .ambiguous

/-- The scopes of the query levels around a place, the innermost first. -/
abbrev ScopeStack := List Scope

namespace ScopeStack

/-- The innermost scope becomes its image; without any scope one is opened. -/
def modifyInnermost (f : Scope → Scope) : ScopeStack → ScopeStack
  | [] => [f {}]
  | s :: rest => f s :: rest

def add (stack : ScopeStack) (e : Entry) (names : List String) : ScopeStack :=
  modifyInnermost (·.add e names) stack

def markNullable (first last : Nat) : ScopeStack → ScopeStack
  | [] => []
  | s :: rest => s.markNullable first last :: rest

/-- How many entries the innermost scope has. -/
def size (stack : ScopeStack) : Nat := stack.head?.elim 0 (·.entries.length)

/-- An entry of the innermost scope. -/
def entryAt? (stack : ScopeStack) (i : Nat) : Option Entry := stack.head?.bind (·.entries[i]?)

/-- The entry a name belongs to in the innermost scope that knows the name. -/
def lookupQualified (catalog : Catalog) (qualifier name : String) :
    ScopeStack → ColumnLookup × ScopeStack
  | [] => (.unresolved, [])
  | s :: rest =>
    match s.index? qualifier with
    | some i =>
      let s := s.loadAt catalog i
      (.through name s.entries[i]?.toList, s :: rest)
    | none =>
      let (found, rest) := lookupQualified catalog qualifier name rest
      (found, s :: rest)

/-- The entries that list a name in the innermost scope where one does. -/
def owners (catalog : Catalog) (name : String) : ScopeStack → List Entry × ScopeStack
  | [] => ([], [])
  | s :: rest =>
    let s := s.load catalog
    match s.entries.filter (·.hasColumn name) with
    | [] =>
      let (found, rest) := owners catalog name rest
      (found, s :: rest)
    | found => (found, s :: rest)

/-- The entries of the innermost scope that may have columns nobody knows of. -/
def unknown (stack : ScopeStack) : List Entry :=
  (stack.head?.elim [] (·.entries)).filter (·.columnMap?.isNone)

/-- An unqualified name belongs to the entry that lists it; one that none lists, to the
entry with unknown columns. -/
def lookupUnqualified (catalog : Catalog) (name : String) (stack : ScopeStack) :
    ColumnLookup × ScopeStack :=
  match owners catalog name stack with
  | ([], stack) => (.through name (unknown stack), stack)
  | (found, stack) => (.through name found, stack)

/-- Finds a column; columns of the entries that are asked on the way are loaded. -/
def lookup (catalog : Catalog) (column : ColumnRef) (stack : ScopeStack) :
    ColumnLookup × ScopeStack :=
  match column.qualifier with
  | some qualifier =>
    lookupQualified catalog (column.schema.elim qualifier (· ++ "." ++ qualifier)) column.name stack
  | none => lookupUnqualified catalog column.name stack

def expandAll (s : Scope) : Option (List ResultColumn) :=
  match s.entries.filterMap Entry.projectAll? with
  | [] => none
  | expanded => some expanded.flatten

/-- The columns that `*` or `qualifier.*` stands for in the innermost scope,
if any source of it is known. -/
def expand (catalog : Catalog) (qualifier : Option String) :
    ScopeStack → Option (List ResultColumn) × ScopeStack
  | [] => (none, [])
  | s :: rest =>
    match qualifier with
    | some qualifier =>
      match s.index? qualifier with
      | some i =>
        let s := s.loadAt catalog i
        (s.entries[i]?.bind Entry.projectAll?, s :: rest)
      | none => (none, s :: rest)
    | none =>
      let s := s.load catalog
      (expandAll s, s :: rest)

end ScopeStack

end ResultShape
