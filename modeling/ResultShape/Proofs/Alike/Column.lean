import ResultShape.Proofs.Alike.Likeness
import ResultShape.Proofs.Analysis.Forms
import ResultShape.Proofs.Text.Fold
/-! Alike columns: whatever a column is made of, alike parts make alike columns. -/
namespace ResultShape

namespace Likeness

variable {L : Likeness} {env : Env} {c c' d d' : ResultColumn} {cs cs' : List ResultColumn}

namespace Column

theorem alike (h : L.Column c c') : c.Alike L.same c' := by
  cases h
  assumption

theorem holds (h : L.Column c c') : L.holds c.facts := by
  cases h
  assumption

theorem children (h : L.Column c c') : List.Forall₂ L.Column c.children c'.children := by
  cases h
  assumption

theorem isUnresolved_eq (h : L.Column c c') : c.isUnresolved = c'.isUnresolved := by
  simp only [ResultColumn.isUnresolved, isNone_eq h.alike.source, h.alike.sqlType,
    isNone_eq h.alike.reference, isNone_eq h.alike.json, isEmpty_eq h.children]

variable (h : L.Lawful env)

include h

/-- A column of which at most the type, the nullability and names are known. -/
theorem plain {name name' : String} {aliasTable aliasTable' : Option String}
    (hn : L.same name name')
    (ht : Option.Rel L.same aliasTable aliasTable') (sqlType : Option SqlType)
    (isNullable : Option Bool)
    (aggregate : Option String) : L.Column { name, aliasTable, sqlType, isNullable, aggregate }
      { name := name', aliasTable := aliasTable', sqlType, isNullable, aggregate } :=
  .intro ⟨hn, .none, ht, .none, rfl, rfl, rfl, rfl, .none, rfl, .none⟩ (h.untyped rfl rfl) .nil

theorem value (sqlType : Option SqlType) (isNullable : Option Bool) :
    L.Column { sqlType, isNullable } { sqlType, isNullable } :=
  plain h (h.refl _) .none sqlType isNullable none

theorem blank : L.Column .blank .blank := value h none none

/-- A column without a name, of a built-in type if it has any. -/
theorem unnamed (sqlType : Option SqlType) (isNullable : Option Bool)
    {reference reference' : Option Reference}
    (hr : Option.Rel (Reference.Alike L.same) reference reference') {json json' : Option JsonInfo}
    (hj : Option.Rel (JsonInfo.Alike L.same) json json') (hcs : List.Forall₂ L.Column cs cs') :
    L.Column { sqlType, isNullable, reference, json, children := cs }
      { sqlType, isNullable, reference := reference', json := json', children := cs' } :=
  .intro ⟨h.refl _, .none, .none, .none, rfl, rfl, rfl, rfl, hr, rfl, hj⟩ (h.untyped rfl rfl) hcs

/-- A column of which a name, a type and a nullability are known. -/
theorem ofFacts (name : String) {f : TypeFacts} (hf : L.holds f.facts) (isNullable : Option Bool) :
    L.Column { name, sqlType := some f.sqlType, userType := f.userType, isNullable }
      { name, sqlType := some f.sqlType, userType := f.userType, isNullable } :=
  .intro ⟨h.refl _, .none, .none, .none, rfl, rfl, rfl, rfl, .none, rfl, .none⟩
    (h.copied hf none isNullable) .nil

theorem markAmbiguous {name name' : String} (hn : L.same name name') :
    L.Column (ResultColumn.named name).markAmbiguous (ResultColumn.named name').markAmbiguous :=
  .intro ⟨hn, .none, .none, .none, rfl, rfl, rfl, rfl, .none, rfl, .none⟩ h.ambiguous .nil

theorem literal (l : Literal) : L.Column l.column l.column := by
  cases l <;> exact value h _ _

/-- The type of one column with any nullability. -/
theorem typeOf (hc : L.Column c c') (isNullable : Option Bool) :
    L.Column { sqlType := c.sqlType, userType := c.userType, isNullable }
      { sqlType := c'.sqlType, userType := c'.userType, isNullable } :=
  .intro ⟨h.refl _, .none, .none, .none, hc.alike.sqlType, hc.alike.userType, rfl, rfl,
    .none, rfl, .none⟩
    (h.copied hc.holds none isNullable) .nil

theorem binary (op : BinaryOp) (hc : L.Column c c') (hd : L.Column d d') :
    L.Column (.binary op c d) (.binary op c' d') := by
  unfold ResultColumn.binary
  rw [← hc.alike.isNullable, ← hd.alike.isNullable]
  dsimp only
  have hl := typeOf h hc (eitherNullable c.isNullable d.isNullable)
  have hr := typeOf h hd (eitherNullable c.isNullable d.isNullable)
  rw [← hc.alike.sqlType, ← hc.alike.userType] at hl ⊢
  rw [← hd.alike.sqlType, ← hd.alike.userType] at hr ⊢
  split
  · exact value h _ _
  · cases hcs : c.sqlType <;> cases hds :
      d.sqlType <;> rw [hcs] at hl <;> rw [hds] at hr <;> dsimp only
    · exact value h _ _
    · exact hr
    · exact hl
    · split
      · exact hr
      · exact hl

theorem unary (op : UnaryOp) (hc : L.Column c c') : L.Column (.unary op c) (.unary op c') := by
  unfold ResultColumn.unary ResultColumn.truth
  rw [hc.alike.sqlType, hc.alike.isNullable]
  split <;> exact value h _ _

omit h in
/-- A column that keeps all of another one but its type and nullability and
that it is an aggregate. -/
private theorem retyped (hc : L.Column c c') {sqlType : Option SqlType} {userType : Option Name}
    {isNullable : Option Bool} (hholds : L.holds { c.facts with sqlType, userType, isNullable }) :
    L.Column { c with sqlType, userType, isNullable, aggregate := none }
      { c' with sqlType, userType, isNullable, aggregate := none } :=
  .intro ⟨hc.alike.name, hc.alike.aliasName, hc.alike.aliasTable, hc.alike.source, rfl, rfl, rfl,
    hc.alike.isAmbiguous, hc.alike.reference, rfl, hc.alike.json⟩ hholds hc.children

omit h in
/-- A column that keeps the facts of another one. -/
private theorem relabeled (hc : L.Column c c') (hd : d.Alike L.same d') (hfacts : d.facts = c.facts)
    (hchildren : List.Forall₂ L.Column d.children d'.children) : L.Column d d' :=
  .intro hd (hfacts ▸ hc.holds) hchildren

theorem cast {kind : CastKind} {t : DataType} (hk : L.allows (.cast kind))
    (ht : L.allows (.dataType t)) (hc : L.Column c c') :
    L.Column
      (c.cast kind ((env.catalog.resolveType t).sqlType, (env.catalog.resolveType t).userType))
      (c'.cast kind
        ((env.catalog.resolveType t).sqlType, (env.catalog.resolveType t).userType)) := by
  unfold ResultColumn.cast
  rw [← hc.alike.isNullable]
  exact retyped hc (h.cast hk ht hc.holds)

theorem nullif (ha : L.allows .nullif) (hc : L.Column c c') : L.Column c.nullif c'.nullif := by
  have hn := retyped hc (h.nullif ha hc.holds)
  unfold ResultColumn.nullif
  rw [← hc.alike.sqlType, ← hc.alike.userType] at *
  exact hn

theorem jsonFragment (ha : L.allows .jsonQuery) (hc : L.Column c c') :
    L.Column c.jsonFragment c'.jsonFragment :=
  retyped hc (h.jsonFragment ha hc.holds)

theorem head (hcs : List.Forall₂ L.Column cs cs') :
    L.Column (cs.head?.getD .blank) (cs'.head?.getD .blank) :=
  rel_getD (rel_head? hcs) (blank h)

private theorem merged (ha : L.allows .merge) (hcs : List.Forall₂ L.Column cs cs')
    (isNullable : Option Bool) :
    L.Column { ResultColumn.merged cs with isNullable }
      { ResultColumn.merged cs' with isNullable } := by
  have hfirst := head h hcs
  have htypes : cs.map (·.sqlType) = cs'.map (·.sqlType) := map_eq_map hcs fun _ _ hc =>
      hc.alike.sqlType
  unfold ResultColumn.merged
  dsimp only
  rw [htypes, ← hfirst.alike.sqlType, ← hfirst.alike.userType]
  exact retyped hfirst (h.merged ha hfirst.holds _ isNullable)

theorem coalesce (ha : L.allows .merge) (hcs : List.Forall₂ L.Column cs cs') :
    L.Column (.coalesce cs) (.coalesce cs') := by
  have hany : cs.any (·.isNullable == some false) = cs'.any (·.isNullable == some false) :=
    any_eq hcs fun _ _ hc => by rw [hc.alike.isNullable]
  have hall : cs.all (·.isNullable == some true) = cs'.all (·.isNullable == some true) :=
    all_eq hcs fun _ _ hc => by rw [hc.alike.isNullable]
  unfold ResultColumn.coalesce
  rw [hany, hall, isEmpty_eq hcs]
  exact merged h ha hcs _

theorem isNull (ha : L.allows .merge) (hcs : List.Forall₂ L.Column cs cs') :
    L.Column (.isNull cs) (.isNull cs') := by
  have hnull (o : Option ResultColumn) (o' : Option ResultColumn) (ho : Option.Rel L.Column o o') :
      o.bind (·.isNullable) = o'.bind (·.isNullable) := by
    cases ho with
    | none => rfl
    | some hc => exact hc.alike.isNullable
  unfold ResultColumn.isNull
  rw [hnull _ _ (rel_head? hcs), hnull _ _ (rel_getElem? hcs 1)]
  exact merged h ha hcs _

omit h in
theorem renamed (hc : L.Column c c') {name name' : String} (hn : L.same name name') :
    L.Column { c with name } { c' with name := name' } :=
  relabeled hc ⟨hn, hc.alike.aliasName, hc.alike.aliasTable, hc.alike.source, hc.alike.sqlType,
    hc.alike.userType,
    hc.alike.isNullable, hc.alike.isAmbiguous, hc.alike.reference, hc.alike.aggregate,
    hc.alike.json⟩ rfl hc.children

omit h in
theorem aliased (hc : L.Column c c') {aliasName aliasName' : Option String}
    (hn : Option.Rel L.same aliasName aliasName') :
    L.Column { c with aliasName } { c' with aliasName := aliasName' } :=
  relabeled hc
    ⟨hc.alike.name, hn, hc.alike.aliasTable, hc.alike.source, hc.alike.sqlType, hc.alike.userType,
      hc.alike.isNullable, hc.alike.isAmbiguous, hc.alike.reference, hc.alike.aggregate,
      hc.alike.json⟩
    rfl hc.children

omit h in
theorem noAggregate (hc : L.Column c c') :
    L.Column { c with aggregate := none } { c' with aggregate := none } :=
  relabeled hc
    ⟨hc.alike.name, hc.alike.aliasName, hc.alike.aliasTable, hc.alike.source, hc.alike.sqlType,
      hc.alike.userType, hc.alike.isNullable, hc.alike.isAmbiguous, hc.alike.reference, rfl,
      hc.alike.json⟩
    rfl hc.children

omit h in
theorem asJson (hc : L.Column c c') (shapeUnknown : Bool) :
    L.Column (c.asJson shapeUnknown) (c'.asJson shapeUnknown) :=
  relabeled hc
    ⟨hc.alike.name, hc.alike.aliasName, hc.alike.aliasTable, hc.alike.source, hc.alike.sqlType,
      hc.alike.userType, hc.alike.isNullable, hc.alike.isAmbiguous, hc.alike.reference,
      hc.alike.aggregate, rel_or hc.alike.json (.some ⟨rfl, .none, rfl, rfl, rfl⟩)⟩
    rfl hc.children

theorem arrayOf (hc : L.Column c c') : L.Column (.arrayOf c) (.arrayOf c') := by
  have hname : L.same (if c.name.isEmpty then ResultColumn.arrayItemName else c.name)
      (if c'.name.isEmpty then ResultColumn.arrayItemName else c'.name) := by
    rw [Text.isEmpty_eq (h.fold_eq hc.alike.name)]
    split
    · exact h.refl _
    · exact hc.alike.name
  have hchildren :
      List.Forall₂ L.Column (ResultColumn.arrayOf c).children
        (ResultColumn.arrayOf c').children := by
    unfold ResultColumn.arrayOf
    dsimp only
    rw [isSome_eq hc.alike.json, isEmpty_eq hc.children]
    split
    · exact hc.children
    · exact .cons (hc.renamed hname) .nil
  exact unnamed h _ _ .none (.some ⟨rfl, .none, rfl, rfl, hc.isUnresolved_eq⟩) hchildren

theorem ofSubquery {s s' : ResultSet} (hs : L.Set s s') :
    L.Column (.ofSubquery s) (.ofSubquery s') := by
  have hinside (cs cs' : List ResultColumn) (hcs : List.Forall₂ L.Column cs cs') :
      L.Column { children := cs } { children := cs' } := unnamed h none none .none .none hcs
  unfold ResultColumn.ofSubquery
  rw [← hs.returnsJson]
  split
  · exact unnamed h _ _ .none
      (.some ⟨hs.returnsJsonArray, hs.jsonRootName, hs.jsonIncludeNulls, rfl, rfl⟩) hs.columns
  · have hcs := hs.columns
    generalize s.columns = cs at hcs
    generalize s'.columns = cs' at hcs
    rcases hcs with _ | ⟨hc, _ | ⟨hd, hcs⟩⟩
    · exact hinside _ _ .nil
    · dsimp only
      rw [isEmpty_eq hc.children, isNone_eq hc.alike.json]
      split
      · exact hc.aliased .none
      · exact hinside _ _ (.cons hc .nil)
    · exact hinside _ _ (.cons hc (.cons hd hcs))

end Column

/-- Branches of two conditionals, one in the place of the other. -/
structure Candidate (L : Likeness) (b b' : ResultColumn.Candidate) : Prop where
  head : b'.expr.head = b.expr.head.rewrite L.rewriting
  column : L.Column b.column b'.column

namespace Candidate

variable {b b' first first' : ResultColumn.Candidate} {rest rest' : List ResultColumn.Candidate}

theorem isNullLiteral_eq (hb : L.Candidate b b') : b.isNullLiteral = b'.isNullLiteral := by
  rw [ResultColumn.Candidate.isNullLiteral, ResultColumn.Candidate.isNullLiteral, Expr.literal?_eq,
    Expr.literal?_eq, hb.head]
  cases b.expr.head <;> rfl

private theorem score_eq (hb : L.Candidate b b') : b.score = b'.score := by
  rw [ResultColumn.Candidate.score_eq_elim, ResultColumn.Candidate.score_eq_elim, hb.head,
    hb.column.alike.sqlType]
  cases b.expr.head <;> rfl

private theorem sameIfPresent_eq (h : L.Lawful env) {a a' b b' : Option String}
    (ha : Option.Rel L.same a a')
    (hb : Option.Rel L.same b b') : sameIfPresent a b = sameIfPresent a' b' := by
  cases ha with
  | none => cases hb <;> rfl
  | some ha =>
    cases hb with
    | none => rfl
    | some hb => simp only [sameIfPresent, Text.same, h.fold_eq ha, h.fold_eq hb]

private theorem agrees_eq (h : L.Lawful env) (hfirst : L.Candidate first first')
    (hb : L.Candidate b b') :
    first.agrees b = first'.agrees b' := by
  have hf := hfirst.column.alike.source
  have hs := hb.column.alike.source
  unfold ResultColumn.Candidate.agrees
  generalize first.column.source = s₁ at hf
  generalize first'.column.source = s₁' at hf
  generalize b.column.source = s₂ at hs
  generalize b'.column.source = s₂' at hs
  cases hs with
  | none => rfl
  | some hs =>
    cases hf with
    | none => rfl
    | some hf =>
      simp only [ColumnSource.sameOrigin, sameIfPresent_eq h hs.schema hf.schema,
        sameIfPresent_eq h hs.table hf.table, sameIfPresent_eq h hs.column hf.column]

private theorem primary (h : L.Lawful env) (hfirst : L.Candidate first first')
    (hrest : List.Forall₂ L.Candidate rest rest') : L.Candidate (first.primary rest)
    (first'.primary rest') := by
  have hall : (first :: rest).all first.agrees = (first' :: rest').all first'.agrees :=
    all_eq (.cons hfirst hrest) fun _ _ hb => agrees_eq h hfirst hb
  unfold ResultColumn.Candidate.primary
  rw [hall]
  split
  · exact hfirst
  · refine List.rel_foldl (fun best best' hbest c c' hc => ?_) hfirst hrest
    rw [score_eq hbest, score_eq hc]
    split
    · exact hc
    · exact hbest

end Candidate

theorem Column.conditional (h : L.Lawful env) {bs bs' : List ResultColumn.Candidate}
    (hbs : List.Forall₂ L.Candidate bs bs') (hasElse : Bool) :
    L.Column (.conditional bs hasElse) (.conditional bs' hasElse) := by
  have htypes : bs.map (·.column.sqlType) = bs'.map (·.column.sqlType) :=
    map_eq_map hbs fun _ _ hb => hb.column.alike.sqlType
  have hnull : bs.map (·.column.isNullable) = bs'.map (·.column.isNullable) :=
    map_eq_map hbs fun _ _ hb => hb.column.alike.isNullable
  have hreal :
      List.Forall₂ L.Candidate (bs.filter (!·.isNullLiteral)) (bs'.filter (!·.isNullLiteral)) :=
    List.rel_filter (fun _ _ hb => by simp only [hb.isNullLiteral_eq]) hbs
  unfold ResultColumn.conditional
  dsimp only
  rw [htypes, hnull]
  generalize bs.filter (!·.isNullLiteral) = cs at hreal
  generalize bs'.filter (!·.isNullLiteral) = cs' at hreal
  cases hreal with
  | nil => exact value h _ _
  | cons hfirst hrest =>
    have hp := (Candidate.primary h hfirst hrest).column
    refine .intro ⟨hp.alike.name, .none, hp.alike.aliasTable, hp.alike.source, rfl, ?_, rfl, rfl,
      hp.alike.reference, rfl, hp.alike.json⟩ ?_ hp.children
    · dsimp only
      rw [hp.alike.sqlType, hp.alike.userType]
    · unfold ResultColumn.facts
      dsimp only
      split
      · rename_i heq
        rw [← heq]
        exact h.copied hp.holds _ _
      · exact h.untyped rfl rfl

namespace Projection

variable {p p' q q' : ResultShape.Projection}

theorem union (h : L.Lawful env) (ha : L.allows .setOp) (hp : L.Projection p p')
    (hq : L.Projection q q') :
    L.Projection (p.union q) (p'.union q') := by
  refine ⟨?_, by
    rw [ResultShape.Projection.union, ResultShape.Projection.union, hp.hasWildcard, hq.hasWildcard]⟩
  refine List.forall₂_iff_get.2
    ⟨by simp [ResultShape.Projection.union, hp.columns.length_eq], fun i hi hi' => ?_⟩
  simp only [ResultShape.Projection.union, List.get_eq_getElem, List.getElem_mapIdx]
  have hc :=
    (List.forall₂_iff_get.1 hp.columns).2 i (by simpa [ResultShape.Projection.union] using hi)
    (by simpa [ResultShape.Projection.union] using hi')
  simp only [List.get_eq_getElem] at hc
  have hd := rel_getElem? hq.columns i
  generalize q.columns[i]? = d at hd
  generalize q'.columns[i]? = d' at hd
  cases hd with
  | none => exact hc
  | some hd =>
    dsimp only
    rw [← hc.alike.isNullable, ← hd.alike.isNullable]
    exact .intro
      ⟨hc.alike.name, hc.alike.aliasName, hc.alike.aliasTable, hc.alike.source, hc.alike.sqlType,
        hc.alike.userType, rfl, hc.alike.isAmbiguous, hc.alike.reference, hc.alike.aggregate,
        hc.alike.json⟩
      (h.widened ha hc.holds _) hc.children

end Projection

namespace Info

variable {i i' : ColumnInfo} {name name' : String}

theorem ofColumn (h : L.Lawful env) (hn : L.same name name') (hc : L.Column c c') :
    L.Info (.ofColumn name c) (.ofColumn name' c') :=
  ⟨hn, hc.alike.source, hc.alike.sqlType, hc.alike.userType, hc.alike.isNullable,
    hc.alike.reference, hc.alike.json, h.copied hc.holds c.source c.isNullable, hc.children⟩

theorem project (h : L.Lawful env) (hi : L.Info i i') {aliasTable aliasTable' : String}
    (ha : L.same aliasTable aliasTable') (forceNullable : Bool) :
    L.Column (i.project aliasTable forceNullable) (i'.project aliasTable' forceNullable) := by
  refine .intro ⟨hi.name, .none, .some ha, hi.source, hi.sqlType, hi.userType, ?_, rfl,
    hi.reference, rfl, hi.json⟩
    (h.copied hi.holds i.source _) hi.children
  simp only [ColumnInfo.project, hi.isNullable]

end Info

end Likeness

end ResultShape
