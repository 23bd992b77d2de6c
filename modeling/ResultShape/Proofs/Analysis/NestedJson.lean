import ResultShape.Proofs.Analysis.Naming
import ResultShape.Proofs.Analysis.Projection
import ResultShape.Proofs.Analysis.Success
import ResultShape.Proofs.ForJson.NestedShape
/-! Nested `FOR JSON` queries: a query in path mode that projects a `FOR JSON` query under an alias
has, as the field of the alias, the document of that query. -/
namespace ResultShape

/-- The mode of a clause that is `FOR JSON`. -/
def ForClause.mode? : ForClause → Option JsonMode
  | .json mode _ => some mode
  | _ => none

/-- The mode of a query that has a `FOR JSON` clause. -/
def Query.jsonMode? (q : Query) : Option JsonMode := q.forClause.bind ForClause.mode?

private theorem ForJson.mode_foldl {α : Type} (step : ForJson → α → ForJson)
    (h : ∀ f x, (step f x).mode = f.mode)
    (xs : List α) (f : ForJson) : (xs.foldl step f).mode = f.mode := by
  induction xs generalizing f with
  | nil => rfl
  | cons x xs ih => rw [List.foldl_cons, ih, h]

private theorem Query.mode_forJson? (q : Query) (config : Config) :
    (q.forJson? config).map (·.mode) = q.jsonMode? := by
  unfold forJson? jsonMode?
  rcases q.forClause with - | ⟨mode, options⟩ | text | -
  · rfl
  · have hoptions :=
      ForJson.mode_foldl ForJson.withOption (fun f o => by cases o <;> rfl) options { mode }
    have hfill (f : ForJson) : (f.fill q.sourceText).mode = f.mode :=
      ForJson.mode_foldl ForJson.fillFrom (fun _ _ => rfl) _ f
    simp only [Option.bind_some, ForJson.ofClause?, Option.map_some, ForClause.mode?,
      Option.some.injEq]
    split
    · rw [hfill, hoptions]
    · rw [hoptions]
  · rfl
  · rfl

/-- A query with a `FOR JSON` clause gives a document, whose fields are those of its
columns in the mode of the clause. -/
theorem Query.jsonShape_resultOf {q : Query} {mode : JsonMode} (h : q.jsonMode? = some mode)
    (config : Config) (p : Projection) :
    (q.resultOf config p).returnsJson = true ∧
      (q.resultOf config p).jsonShape =
        ResultColumn.jsonFields mode "" (q.resultOf config p).columns := by
  rw [← mode_forJson? q config] at h
  obtain ⟨f, hf, rfl⟩ := Option.map_eq_some_iff.1 h
  rw [resultOf, hf]
  exact ⟨rfl, rfl⟩

/-- A body projects a scalar subquery under an alias: parentheses and the right sides of set
operations aside, its block has it as an item. -/
inductive Body.Projects (a : String) (q : Query) : Body → Prop where
  | block {s : Select} {value : Expr} (hi : .expr value (some a) ∈ s.items)
    (hv : value.unnested = .subquery q) : Projects a q (.select s)
  | nested {r : Query} (h : Projects a q r.body) : Projects a q (.nested r)
  | left {op : SetOp} {left right : Body} (h : Projects a q left) :
      Projects a q (.setOp op left right)

/-- When a body is projected in a context, while so many queries may be opened in it, a scalar
subquery is the column at a position, under an alias, and comes to a result set where it stands. -/
inductive ShowsSubquery (env : Env) (a : String) (q : Query) (set : ResultSet) :
    Nat → Body → Context → Nat → Prop where
  | block {k i : Nat} {s : Select} {c c₁ c₂ : Context} {value : Expr}
    (hi : s.ItemAt env k c (.expr value (some a)) i c₁) (hv : value.unnested = .subquery q)
    (hq : ((Nested.within k).query q).outcome env c₁ = (.ok set, c₂)) :
      ShowsSubquery env a q set k (.select s) c i
  | nested {k i : Nat} {r : Query} {c : Context}
    (h : ShowsSubquery env a q set k r.body (c.inside r) i) :
      ShowsSubquery env a q set (k + 1) (.nested r) c i
  | left {k i : Nat} {op : SetOp} {left right : Body} {c : Context}
    (h : ShowsSubquery env a q set k left c i) :
      ShowsSubquery env a q set k (.setOp op left right) c i

/-- The column under an alias is a document with the columns of a result set inside it. -/
structure ResultColumn.ShowsDocument (a : String) (set : ResultSet) (c : ResultColumn) : Prop where
  aliasName : c.aliasName = some a
  isArray : c.json.map (·.isArray) = some set.returnsJsonArray
  children : c.children = set.columns

open Analysis

variable {env : Env} {a : String} {q : Query} {inner : ResultSet} {k i : Nat} {b : Body}
  {c c' : Context} {p : Projection}

/-- A successful run comes to a result set for every subquery that is projected. -/
theorem Body.Projects.exists_showsSubquery (h : b.Projects a q)
    (hp : (b.project (Nested.within k)).outcome env c = (.ok p, c')) :
    ∃ inner i, ShowsSubquery env a q inner k b c i := by
  induction h generalizing k c c' p with
  | block hi hv =>
    obtain ⟨i, c₁, hat⟩ := Select.exists_itemAt hi hp
    obtain ⟨inner, c₂, hq, -⟩ := hat.subquery hv hp
    exact ⟨inner, i, .block hat hv hq⟩
  | nested h ih =>
    obtain ⟨set, c₁, hq, -⟩ := outcome_bind_eq_ok.1 hp
    match k, hq with
    | k + 1, hq =>
      obtain ⟨-, p', c₂, hbody, -, -⟩ := outcome_query_eq_ok.1 hq
      obtain ⟨inner, i, hshows⟩ := ih hbody
      exact ⟨inner, i, .nested hshows⟩
  | left h ih =>
    obtain ⟨l, c₁, hl, -⟩ := outcome_bind_eq_ok.1 hp
    obtain ⟨inner, i, hshows⟩ := ih hl
    exact ⟨inner, i, .left hshows⟩

/-- What a query with a `FOR JSON` clause comes to is a document. -/
private theorem document_of_outcome {mode : JsonMode} (hq : q.jsonMode? = some mode)
    (h : ((Nested.within k).query q).outcome env c = (.ok inner, c')) :
    inner.returnsJson = true ∧ inner.jsonShape = ResultColumn.jsonFields mode "" inner.columns := by
  match k, h with
  | k + 1, h =>
    obtain ⟨-, p, c₁, -, rfl, -⟩ := outcome_query_eq_ok.1 h
    exact Query.jsonShape_resultOf hq env.config p

/-- The result set of a subquery that is shown is what the subquery came to. -/
theorem ShowsSubquery.exists_outcome (h : ShowsSubquery env a q inner k b c i) :
    ∃ k c c', ((Nested.within k).query q).outcome env c = (.ok inner, c') := by
  induction h with
  | block _ _ hq => exact ⟨_, _, _, hq⟩
  | nested _ ih => exact ih
  | left _ ih => exact ih

private theorem showsDocument_ofSubquery (h : inner.returnsJson = true) :
    ResultColumn.ShowsDocument a inner
      { ResultColumn.ofSubquery inner with
        aliasName := (some a).or (ResultColumn.ofSubquery inner).aliasName } := by
  rw [ResultColumn.ofSubquery, if_pos h]
  exact ⟨rfl, rfl, rfl⟩

private theorem showsDocument_assignNames {cs : List ResultColumn} {column : ResultColumn}
    (hi : cs[i]? = some column) (h : column.ShowsDocument a inner) :
    ∃ named, (ResultColumn.assignNames cs)[i]? = some named ∧ named.ShowsDocument a inner := by
  have hmap :=
    ResultColumn.map_assignNames (f := fun c => (c.aliasName, c.json.map (·.isArray), c.children))
    (fun _ _ => rfl) cs
  have hat := congrArg (·[i]?) hmap
  simp only [List.getElem?_map, hi, Option.map_some, Option.map_eq_some_iff, Prod.mk.injEq] at hat
  obtain ⟨named, hnamed, halias, harray, hchildren⟩ := hat
  exact ⟨named, hnamed, halias.trans h.aliasName, harray.trans h.isArray,
    hchildren.trans h.children⟩

private theorem showsDocument_union {left right : Projection} {column : ResultColumn}
    (hi : left.columns[i]? = some column) (h : column.ShowsDocument a inner) :
    ∃ column, (left.union right).columns[i]? = some column ∧ column.ShowsDocument a inner := by
  rw [Projection.union, List.getElem?_mapIdx, hi]
  refine ⟨_, rfl, ?_⟩
  cases right.columns[i]? with
  | none => exact h
  | some other => exact ⟨h.aliasName, h.isArray, h.children⟩

/-- The column at the position is the document of the subquery. -/
theorem ShowsSubquery.showsDocument (h : ShowsSubquery env a q inner k b c i) {mode : JsonMode}
    (hq : q.jsonMode? = some mode)
    (hp : (b.project (Nested.within k)).outcome env c = (.ok p, c')) :
    ∃ column, p.columns[i]? = some column ∧ column.ShowsDocument a inner := by
  induction h generalizing c' p with
  | block hi hv hset =>
    obtain ⟨inner', c₂, hset', hcolumn⟩ := hi.subquery hv hp
    cases hset.symm.trans hset'
    exact ⟨_, hcolumn, showsDocument_ofSubquery (document_of_outcome hq hset).1⟩
  | nested h ih =>
    obtain ⟨set, c₁, hset, hp⟩ := outcome_bind_eq_ok.1 hp
    cases hp
    obtain ⟨-, p', c₂, hbody, rfl, -⟩ := outcome_query_eq_ok.1 hset
    obtain ⟨column, hi, hshows⟩ := ih hbody
    rw [Query.columns_resultOf]
    exact showsDocument_assignNames hi hshows
  | left h ih =>
    obtain ⟨left, c₁, hl, hp⟩ := outcome_bind_eq_ok.1 hp
    obtain ⟨right, c₂, -, hp⟩ := outcome_bind_eq_ok.1 hp
    cases hp
    obtain ⟨column, hi, hshows⟩ := ih hl
    exact showsDocument_union hi hshows

/-- The subquery's column has its alias for a name, and no other name of
the result set begins with it. -/
structure StandsAlone (a : String) (i : Nat) (columns : List ResultColumn) : Prop where
  name_ne : ∀ j d, j ≠ i → columns[j]? = some d → Text.fold d.name ≠ Text.fold a
  segment_ne : ∀ j d, j ≠ i → columns[j]? = some d → (Text.segments d.name).head? ≠ some a

/-- The names of a document are taken apart as path mode does, and none begins with a dot. -/
def Nestable (mode : JsonMode) (columns : List ResultColumn) : Prop :=
  ∀ c ∈ columns, ResultColumn.fieldSegments mode c.name = Text.segments c.name ∧
    (Text.segments c.name).head? ≠ some ""

theorem ResultColumn.ShowsDocument.named {column : ResultColumn} (h : column.ShowsDocument a inner)
    (name : String) : { column with name }.ShowsDocument a inner :=
  ⟨h.aliasName, h.isArray, h.children⟩

/-- The field of a column that shows a document, under the alias. -/
theorem ResultColumn.ShowsDocument.exists_field {column : ResultColumn}
    (h : column.ShowsDocument a inner) :
    ∃ field, column.fieldAt a a = field ∧ field.name = a ∧ field.isArray = inner.returnsJsonArray ∧
      field.children = ResultColumn.jsonFields .path a inner.columns := by
  obtain ⟨-, harray, hchildren⟩ := h
  match column, harray, hchildren with
  | ⟨_, _, _, _, _, _, _, _, _, _, some info, _⟩, harray, rfl =>
    exact ⟨_, rfl, rfl, Option.some.inj harray, rfl⟩

/-- In the document of a query in path mode there is one field under the alias of a `FOR JSON` query
that it projects. The field is an array just when the document of that query is one, and what is in
it are the fields of that document, with the alias in front of every path. -/
theorem nested_document (env : Env) (k : Nat) {outer : Query} {c c' : Context} {set : ResultSet}
    (hrun : ((Nested.within (k + 1)).query outer).outcome env c = (.ok set, c'))
    (ho : outer.jsonMode? = some .path)
    {a : String} (ha : a ≠ "") (hdot : '.' ∉ a.toList) {q : Query} {mode : JsonMode}
    (hq : q.jsonMode? = some mode) :
    (outer.body.Projects a q →
      ∃ inner i, ShowsSubquery env a q inner k outer.body (c.inside outer) i) ∧
      ∀ inner i, ShowsSubquery env a q inner k outer.body (c.inside outer) i →
        StandsAlone a i set.columns →
        Nestable mode inner.columns →
        ∃ field, set.jsonShape.filter (·.path == a) = [field] ∧ field.name = a ∧
          field.isArray = inner.returnsJsonArray ∧
          field.children = inner.jsonShape.map (·.inside a) := by
  obtain ⟨-, p, c₁, hp, hset, -⟩ := outcome_query_eq_ok.1 hrun
  refine ⟨fun hprojects => hprojects.exists_showsSubquery hp,
    fun inner i hshows halone hnames => ?_⟩
  obtain ⟨column, hi, hdocument⟩ := hshows.showsDocument hq hp
  have hcolumns : ResultColumn.assignNames p.columns = set.columns := by
    rw [← hset, Query.columns_resultOf]
  have hnamed : set.columns[i]? = some { column with name := a } := by
    rw [← hcolumns]
    refine ResultColumn.getElem?_assignNames_of_aliasName hi hdocument.aliasName ha
      fun j d hj hd => ?_
    exact halone.name_ne j d (Nat.ne_of_lt hj) (hcolumns ▸ hd)
  have hshape : set.jsonShape = ResultColumn.jsonFields .path "" set.columns :=
    hset ▸ (Query.jsonShape_resultOf ho env.config p).2
  obtain ⟨field, hfield, hname, harray, hchildren⟩ := (hdocument.named a).exists_field
  obtain ⟨_, _, _, hinner⟩ := hshows.exists_outcome
  have hnested := ResultColumn.jsonFields_inside ha (fun c hc => (hnames c hc).1) fun c hc =>
      (hnames c hc).2
  refine ⟨field, ?_, hname, harray, ?_⟩
  · rw [hshape, ResultColumn.filter_jsonFields hdot hnamed rfl halone.segment_ne, hfield]
  · rw [hchildren, hnested, (document_of_outcome hq hinner).2]

/-- The document of one value under an alias, in a mode. -/
def documentOf (value : Expr) (aliasName : String) (mode : JsonMode) : Query :=
  ⟨.select ⟨false, none, [.expr value (some aliasName)], none, [], none, [], none⟩, [], [],
    some (.json mode []), none⟩

/-- A document with another one inside it, in other modes. -/
def innerDocument : Query :=
  documentOf (.paren (.subquery (documentOf (.literal (.int 1)) "x.y" .path))) "inner" .auto

/-- A document whose mode keeps the dot in a name. -/
def dottedDocument : Query := documentOf (.literal (.int 1)) "x.y" .auto

/-- A document with another one under the alias `a`. -/
def documentUnder (q : Query) : Query := documentOf (.subquery q) "a" .path

/-- An environment with no objects of its own. -/
private def noObjects : Env := ⟨.builtinOnly {}, {}⟩

private def documentRun (k : Nat) (q : Query) (c : Context) :
    Except AnalysisError ResultSet × Context :=
  ((Nested.within k).query q).outcome noObjects c

private def documentSet (k : Nat) (q : Query) (c : Context) : ResultSet :=
  (documentRun k q c).1.toOption.getD default

/-- Where the subquery under the alias is resolved. -/
private def documentContext (q : Query) : Context :=
  (({} : Context).inside (documentUnder q)).pushScope

private theorem showsSubquery_documentUnder {k : Nat} {q : Query}
    (h : (documentRun k q (documentContext q)).1.isOk) :
    ShowsSubquery noObjects "a" q (documentSet k q (documentContext q)) k (documentUnder q).body
      (({} : Context).inside (documentUnder q)) 0 := by
  have hq : ((Nested.within k).query q).outcome noObjects (documentContext q) =
      (.ok (documentSet k q (documentContext q)), (documentRun k q (documentContext q)).2) := by
    change documentRun k q (documentContext q) = _
    unfold documentSet
    cases hrun : documentRun k q (documentContext q) with
    | mk result c' =>
      rw [hrun] at h
      cases result with
      | error e => cases h
      | ok set => rfl
  have hat :
      (documentUnder q).firstSelect.ItemAt noObjects k (({} : Context).inside (documentUnder q))
      (.expr (.subquery q) (some "a")) 0 (documentContext q) :=
    @Select.ItemAt.intro _ _ _ _ _ [] [] _ _ [] rfl rfl rfl
  exact .block hat rfl hq

private theorem standsAlone_of_length_eq_one {columns : List ResultColumn}
    (h : columns.length = 1) :
    StandsAlone a 0 columns := by
  have hnone (j : Nat) (d : ResultColumn) (hj : j ≠ 0) : columns[j]? ≠ some d := by
    rw [List.getElem?_eq_none (by omega)]
    nofun
  exact ⟨fun j d hj hd => absurd hd (hnone j d hj), fun j d hj hd => absurd hd (hnone j d hj)⟩

/-- In the document of a document the inner names are taken apart, however deep. -/
theorem nested_document_two_levels :
    ∃ set c' field, ((Nested.within 3).query (documentUnder innerDocument)).outcome noObjects {} =
      (.ok set, c') ∧
      set.jsonShape.filter (·.path == "a") = [field] ∧
      field.children =
        [⟨"inner", "a.inner", true, [⟨"x", "a.inner.x", false, [.leaf "y" "a.inner.x.y"]⟩]⟩] := by
  have hrun : ((Nested.within 3).query (documentUnder innerDocument)).outcome noObjects {} =
      (.ok (documentSet 3 (documentUnder innerDocument) {}),
        (documentRun 3 (documentUnder innerDocument) {}).2) := by rfl
  have hshows :
      ShowsSubquery noObjects "a" innerDocument
        (documentSet 2 innerDocument (documentContext innerDocument)) 2
      (documentUnder innerDocument).body (({} : Context).inside (documentUnder innerDocument)) 0 :=
    showsSubquery_documentUnder rfl
  have halone : StandsAlone "a" 0 (documentSet 3 (documentUnder innerDocument) {}).columns :=
    standsAlone_of_length_eq_one rfl
  have hnames :
      Nestable .auto (documentSet 2 innerDocument (documentContext innerDocument)).columns := by
    unfold Nestable
    decide
  obtain ⟨field, hfilter, -, -, hchildren⟩ :=
    (nested_document noObjects 2 hrun rfl (by decide) (by decide) rfl).2 _ 0 hshows halone hnames
  exact ⟨_, _, field, hrun, hfilter, hchildren⟩

/-- A name that the mode of the inner query does not take apart is taken
apart in the document around it. -/
theorem nested_document_dotted_name :
    ∃ set c' inner field,
    ((Nested.within 2).query (documentUnder dottedDocument)).outcome noObjects {} = (.ok set, c') ∧
      ShowsSubquery noObjects "a" dottedDocument inner 1 (documentUnder dottedDocument).body
        (({} : Context).inside (documentUnder dottedDocument)) 0 ∧
      StandsAlone "a" 0 set.columns ∧ set.jsonShape = [field] ∧ field.path = "a" ∧
      field.children ≠ inner.jsonShape.map (·.inside "a") := by
  have hrun : ((Nested.within 2).query (documentUnder dottedDocument)).outcome noObjects {} =
      (.ok (documentSet 2 (documentUnder dottedDocument) {}),
        (documentRun 2 (documentUnder dottedDocument) {}).2) := by rfl
  refine ⟨_, _, _, _, hrun, showsSubquery_documentUnder rfl, standsAlone_of_length_eq_one rfl, rfl,
    rfl, fun h => ?_⟩
  have hnames := congrArg (List.map (·.name)) h
  revert hnames
  decide

end ResultShape
