import ResultShape.Analysis.Source
/-! Answers of catalogs: two catalogs with the same metadata and the same default
schema answer alike if their system schemas differ at most in case, and so do scopes
that load their columns from them. -/
namespace ResultShape

/-- The catalogs differ at most in the case of their system schemas. -/
structure Catalog.AnswersLike (c c' : Catalog) : Prop where
  snapshot : c.snapshot = c'.snapshot
  defaultSchema : c.defaultSchema = c'.defaultSchema
  systemSchema : Text.fold c.systemSchema = Text.fold c'.systemSchema

namespace Catalog.AnswersLike

variable {c c' : Catalog}

theorem refl (c : Catalog) : c.AnswersLike c := ⟨rfl, rfl, rfl⟩

theorem symm (h : c.AnswersLike c') : c'.AnswersLike c :=
  ⟨h.snapshot.symm, h.defaultSchema.symm, h.systemSchema.symm⟩

variable (h : c.AnswersLike c')

include h

theorem schemaOf_eq (n : Name) : c.schemaOf n = c'.schemaOf n := by
  rw [schemaOf, schemaOf, h.defaultSchema]

theorem tableColumns?_eq (n : Name) : c.tableColumns? n = c'.tableColumns? n := by
  rw [tableColumns?, tableColumns?, h.snapshot, h.schemaOf_eq]

theorem functionColumns?_eq (n : Name) : c.functionColumns? n = c'.functionColumns? n := by
  rw [functionColumns?, functionColumns?, h.snapshot, h.schemaOf_eq]

theorem tableTypeColumns?_eq (n : Name) : c.tableTypeColumns? n = c'.tableTypeColumns? n := by
  rw [tableTypeColumns?, tableTypeColumns?, h.snapshot, h.schemaOf_eq]

theorem objectKind?_eq (n : Name) : c.objectKind? n = c'.objectKind? n := by
  rw [objectKind?, objectKind?, h.snapshot, h.schemaOf_eq]

/-- The system schema is only ever compared, and without regard to case. -/
theorem isBuiltin_eq (n : Name) : c.isBuiltin n = c'.isBuiltin n := by
  unfold isBuiltin
  cases n.schema with
  | none => rfl
  | some schema => simp only [Text.same, h.systemSchema]

theorem resolveType?_eq (t : DataType) : c.resolveType? t = c'.resolveType? t := by
  have hscalar : c.scalarType? t.name = c'.scalarType? t.name := by
    rw [scalarType?, scalarType?, h.snapshot, h.defaultSchema]
  simp only [resolveType?, resolve?, h.isBuiltin_eq, hscalar]

theorem resolveType_eq (t : DataType) : c.resolveType t = c'.resolveType t := by
  rw [resolveType, resolveType, h.resolveType?_eq]

theorem resolveColumn_eq (r : ColumnRecord) : c.resolveColumn r = c'.resolveColumn r := by
  rw [resolveColumn, resolveColumn, h.resolveType_eq]

theorem ofRecord_eq (owner : ColumnSource) :
    ColumnInfo.ofRecord c owner = ColumnInfo.ofRecord c' owner := by
  funext r
  simp only [ColumnInfo.ofRecord, h.resolveColumn_eq]

theorem ofRecords_eq (owner : ColumnSource) (records : List ColumnRecord) :
    ColumnMap.ofRecords c owner records = ColumnMap.ofRecords c' owner records := by
  rw [ColumnMap.ofRecords, ColumnMap.ofRecords, h.ofRecord_eq]

theorem ofDefinitions_eq (owner : String) (columns : List ColumnDefinition) :
    ColumnMap.ofDefinitions c owner columns = ColumnMap.ofDefinitions c' owner columns := by
  have hone : ColumnInfo.ofDefinition c owner = ColumnInfo.ofDefinition c' owner := by
    funext d
    simp only [ColumnInfo.ofDefinition, h.resolveType_eq]
  rw [ColumnMap.ofDefinitions, ColumnMap.ofDefinitions, hone]

theorem openJsonColumn_eq : Analysis.openJsonColumn c = Analysis.openJsonColumn c' := by
  funext column
  simp only [Analysis.openJsonColumn, h.resolveType_eq]

theorem load_eq : Entry.load c = Entry.load c' := by
  have hcolumns (owner : ColumnSource) (columns : EntryColumns) :
      columns.load c owner = columns.load c' owner := by
    cases columns with
    | pending table => simp only [EntryColumns.load, h.tableColumns?_eq, h.ofRecords_eq]
    | unknown => rfl
    | known => rfl
  funext e
  rw [Entry.load, Entry.load, hcolumns]

theorem lookup_eq (ref : ColumnRef) (stack : ScopeStack) :
    stack.lookup c ref = stack.lookup c' ref := by
  have hqualified (qualifier : String) (stack : ScopeStack) :
      stack.lookupQualified c qualifier ref.name = stack.lookupQualified c' qualifier ref.name := by
    induction stack with
    | nil => rfl
    | cons s rest ih => simp only [ScopeStack.lookupQualified, Scope.loadAt, h.load_eq, ih]
  have howners (stack : ScopeStack) : stack.owners c ref.name = stack.owners c' ref.name := by
    induction stack with
    | nil => rfl
    | cons s rest ih => simp only [ScopeStack.owners, Scope.load, h.load_eq, ih]
  unfold ScopeStack.lookup ScopeStack.lookupUnqualified
  rw [howners]
  simp only [hqualified]

theorem expand_eq (qualifier : Option String) (stack : ScopeStack) :
    stack.expand c qualifier = stack.expand c' qualifier := by
  cases stack with
  | nil => rfl
  | cons s rest => simp only [ScopeStack.expand, Scope.loadAt, Scope.load, h.load_eq]

end Catalog.AnswersLike

end ResultShape
