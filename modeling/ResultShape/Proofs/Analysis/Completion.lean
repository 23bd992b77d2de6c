import ResultShape.Proofs.Analysis.Congruence
import ResultShape.Proofs.Analysis.Outcome
import ResultShape.Proofs.Sql.Completion
import ResultShape.Proofs.Sql.Definitions
/-! Completed names: where the settings of the analysis complete names by a schema, a query in which
this schema is written out comes to what the query itself comes to, and leaves the same context but
for the definitions of CTEs in it. -/
namespace ResultShape

/-- A call without a built-in rule is known by the function alone. -/
theorem Meaning.ofCall_of_userDefined {name : Name} (h : BuiltinRule.ofCall? name = none)
    (windowed : Bool)
    (args : List (Expr × Meaning)) :
    ofCall name windowed args = ofColumn (Analysis.userDefinedCall name) := by
  have hcall : Analysis.call name windowed args = Analysis.userDefinedCall name := by
    rw [Analysis.call_eq, h]
    rfl
  unfold ofCall
  rw [hcall]
  dsimp only
  split
  · rfl
  · rename_i hschema
    have hword (word : String) (hw : (BuiltinRule.ofName? word).isSome = true) :
        Text.same name.name word = false := by
      refine Bool.eq_false_iff.2 fun hsame => ?_
      rw [BuiltinRule.ofCall?, if_neg hschema,
        BuiltinRule.ofName?_congr (Text.same_iff.1 hsame)] at h
      rw [h] at hw
      cases hw
    rw [hword "concat" (by decide), hword "string_agg" (by decide)]
    rfl

section Expressions

open Analysis

variable {κ : Completion} {sight : List String} {R : ∀ ⦃α : Type⦄, Analysis α → Analysis α → Prop}
  {n : Nested}

private theorem head_related (h : Congruence R)
    (hname : ∀ name, R (functionName name) (functionName (κ.function name)))
    (e : Expr) : e.head.Related R (e.complete κ sight).head := by
  rw [Expr.head_complete]
  cases e.head with
  | call name windowed =>
    cases hrule : BuiltinRule.ofCall? name with
    | some rule =>
      rw [Expr.Head.complete, Completion.function_eq_self hrule]
      exact .same _
    | none =>
      refine .function windowed ?_ ?_ (wrappedCall_related h (hname name))
      · rw [isUserDefined_eq, hrule, Option.isNone_none]
      · rw [isUserDefined_eq, Completion.ofCall?_function, hrule, Option.isNone_none]
  | _ => exact .same _

private theorem call_complete_related (h : Congruence R)
    (hname : ∀ name, R (functionName name) (functionName (κ.function name))) (name : Name)
    (windowed : Bool)
    {args args' : List (Expr × Meaning)} (hs : List.Forall₂ (Meaning.RelatedArg R) args args') :
    (Meaning.ofCall name windowed args).Related R (.ofCall (κ.function name) windowed args') := by
  cases hrule : BuiltinRule.ofCall? name with
  | some rule =>
    rw [Completion.function_eq_self hrule]
    exact Meaning.ofCall_related h name windowed hs
  | none =>
    rw [Meaning.ofCall_of_userDefined hrule,
      Meaning.ofCall_of_userDefined ((Completion.ofCall?_function name).trans hrule)]
    exact .ofColumn h (userDefinedCall_related h (hname name))

/-- The meaning of a completed expression is related to that of the expression if
its functions and queries are. -/
theorem Expr.meaning_complete (h : Congruence R)
    (hname : ∀ name, R (functionName name) (functionName (κ.function name))) (e : Expr)
    (hn : ∀ q ∈ e.queries, R (n.query q) (n.query (q.complete κ sight))) :
    (e.meaning n).Related R ((e.complete κ sight).meaning n) := by
  have harg (e : Expr) (hm : (e.meaning n).Related R ((e.complete κ sight).meaning n)) :
      Meaning.RelatedArg R (e, e.meaning n) (e.complete κ sight, (e.complete κ sight).meaning n) :=
    ⟨head_related h hname e, e.literalHint_complete.symm, hm⟩
  induction e using Expr.meaning.induct
    (motive_2 := fun o => (∀ q ∈ otherwiseQueries o, R (n.query q) (n.query (q.complete κ sight))) →
      List.Forall₂ (Meaning.RelatedArg R) (otherwiseMeaning n o)
        (otherwiseMeaning n (complete? κ o sight)))
    (motive_3 := fun bs =>
      (∀ q ∈ branchesQueries bs, R (n.query q) (n.query (q.complete κ sight))) →
      List.Forall₂ (Meaning.RelatedArg R) (branchMeanings n bs)
        (branchMeanings n (Branch.completeAll κ bs sight)))
    (motive_4 := fun es => (∀ q ∈ argsQueries es, R (n.query q) (n.query (q.complete κ sight))) →
      List.Forall₂ (Meaning.RelatedArg R) (meanings n es) (meanings n (completeAll κ es sight)))
  all_goals simp only [Expr.queries, argsQueries, branchesQueries, otherwiseQueries,
    List.mem_append, or_imp,
    forall_and, List.mem_singleton, forall_eq, Expr.meaning, meanings, branchMeanings,
    otherwiseMeaning, Expr.complete, complete?, completeAll, Branch.completeAll] at *
  case case1 ref => exact .ofColumn h (columnRef_related h ref)
  case case2 value => exact .ofLiteral h value
  case case3 name => exact .ofColumn h (variableColumn_related h name)
  case case5 ih => exact Meaning.ofCast_related h _ _ (ih hn)
  case case6 ih => exact call_complete_related h hname _ _ (ih hn)
  case case7 ihy ihn =>
    exact Meaning.ofBranches_related h true
      (.cons (harg _ (ihy hn.1)) (.cons (harg _ (ihn hn.2)) .nil))
  case case8 ihb iho =>
    rw [isSome_complete?]
    exact Meaning.ofBranches_related h _ (List.rel_append (ihb hn.1) (iho hn.2))
  case case9 ihl ihr => exact Meaning.ofBinary_related h _ (ihl hn.1) (ihr hn.2)
  case case10 ih => exact Meaning.ofUnary_related h _ (ih hn)
  case case11 ih => exact Meaning.ofCoalesce_related h (ih hn)
  case case12 ihl ihr => exact Meaning.ofNullif_related h (ihl hn.1) (ihr hn.2)
  case case13 => exact .ofColumn h (h.bind hn fun _ => h.pure _)
  case case17 ih => exact ih hn
  case case19 => exact .nil
  case case20 ihe ihs hn => exact .cons (harg _ (ihe hn.1)) (ihs hn.2)
  case case21 => exact .nil
  case case22 ih hn => exact .cons (harg _ (ih hn)) .nil
  case case23 => exact .nil
  case case24 ihe ihs hn => exact .cons (harg _ (ihe hn.1)) (ihs hn.2)
  -- what is left has a type whatever it asks
  all_goals exact .ofColumn h (h.pure _)

end Expressions

/-- The context with the definitions of its CTEs completed. -/
def Context.complete (κ : Completion) (c : Context) : Context :=
  { c with cteFrames := c.cteFrames.map (·.map (Cte.complete κ)) }

theorem Context.cteNamed?_complete (κ : Completion) (c : Context) (name : Name) :
    (c.complete κ).cteNamed? name = (c.cteNamed? name).map (Cte.complete κ) := by
  have hfind : (c.complete κ).findCte? name.name = (c.findCte? name.name).map (Cte.complete κ) := by
    rw [findCte?, findCte?, complete, ← List.map_flatten, List.find?_map]
    rfl
  unfold cteNamed?
  rw [hfind]
  split <;> rfl

namespace Completion

/-- The schema to write out is the one that the analysis completes names by. -/
structure Fits (κ : Completion) (env : Env) : Prop where
  config : env.config.defaultSchema = κ.schema
  catalog : env.catalog.defaultSchema = κ.schema

/-- The CTEs that the query defines, at any level, are among those that may
be in sight of a definition. -/
def Knows (κ : Completion) (q : Query) : Prop :=
  ∀ cte ∈ q.definitions, Text.fold cte.name ∈ κ.defined

/-- The CTEs of the context are in sight, and they and those that they define may
be in sight of a definition. -/
def Covers (κ : Completion) (sight : List String) (c : Context) : Prop :=
  ∀ cte ∈ c.cteFrames.flatten,
    Text.fold cte.name ∈ sight ∧ Text.fold cte.name ∈ κ.defined ∧ κ.Knows cte.query

variable {κ : Completion} {env : Env} {sight : List String} {c : Context}

theorem Knows.of_mem_body {q r : Query} (h : κ.Knows q) (hr : r ∈ q.body.queries) : κ.Knows r :=
  fun cte hc => h cte (Query.definitions_subset_of_mem_body hr hc)

namespace Covers

theorem mono (h : κ.Covers sight c) {more : List String} (hs : sight ⊆ more) : κ.Covers more c :=
  fun cte hc => ⟨hs (h cte hc).1, (h cte hc).2⟩

/-- What may be in sight of a definition is enough for every context. -/
theorem defined (h : κ.Covers sight c) : κ.Covers κ.defined c :=
  fun cte hc => ⟨(h cte hc).2.1, (h cte hc).2⟩

theorem pushCtes (h : κ.Covers sight c) {q : Query} (hq : κ.Knows q) :
    κ.Covers (Cte.keys q.ctes ++ sight) (c.pushCtes q.ctes) := by
  intro cte hc
  rcases List.mem_append.1 hc with hc | hc
  · have hm : cte ∈ q.definitions := q.ctes_subset_definitions hc
    exact ⟨List.mem_append_left _ (List.mem_map_of_mem hc), hq cte hm,
      fun d hd => hq d (Query.definitions_subset_of_mem_definitions hm hd)⟩
  · obtain ⟨hsight, hdefined⟩ := h cte hc
    exact ⟨List.mem_append_right _ hsight, hdefined⟩

theorem knows (h : κ.Covers sight c) {name : Name} {cte : Cte}
    (hcte : c.cteNamed? name = some cte) :
    κ.Knows cte.query := by
  unfold Context.cteNamed? at hcte
  split at hcte
  · exact (h cte (List.mem_of_find?_eq_some hcte)).2.2
  · cases hcte

/-- A name out of sight means no CTE. -/
theorem cteNamed?_eq_none (h : κ.Covers sight c) {name : Name}
    (hn : (name.schema.isNone && name.catalog.isNone && sight.contains (Text.fold name.name)) =
      false) :
    c.cteNamed? name = none := by
  unfold Context.cteNamed?
  split
  · rename_i hpart
    rw [hpart, Bool.true_and] at hn
    refine List.find?_eq_none.2 fun cte hc hsame => ?_
    have hm : Text.fold name.name ∈ sight := Text.same_iff.1 hsame ▸ (h cte hc).1
    exact Bool.false_ne_true (hn.symm.trans (List.contains_iff_mem.2 hm))
  · rfl

end Covers

/-- From a context with completed definitions the second action comes to what the first one comes to
from the context itself, which keeps its `WITH` clauses. -/
def Agrees (κ : Completion) (env : Env) (sight : List String) ⦃α :
    Type⦄ (x y : Analysis α) : Prop :=
  ∀ c, κ.Covers sight c →
    y.outcome env (c.complete κ) = Prod.map id (Context.complete κ) (x.outcome env c) ∧
      (x.outcome env c).2.cteFrames = c.cteFrames

namespace Agrees

open Analysis

variable {α β : Type} {x y : Analysis α} {n : Nested}

theorem bind {f g : α → Analysis β} (hx : κ.Agrees env sight x y)
    (hf : ∀ a, κ.Agrees env sight (f a) (g a)) :
    κ.Agrees env sight (x >>= f) (y >>= g) := by
  intro c hc
  obtain ⟨hxy, hframes⟩ := hx c hc
  rw [outcome_bind, outcome_bind, hxy]
  generalize x.outcome env c = p at hframes ⊢
  obtain ⟨_ | a, c₁⟩ := p
  · exact ⟨rfl, hframes⟩
  · have hc₁ : κ.Covers sight c₁ := by
      rw [Covers, hframes]
      exact hc
    obtain ⟨hfg, hframes₁⟩ := hf a c₁ hc₁
    exact ⟨hfg, hframes₁.trans hframes⟩

theorem congruence : Congruence (κ.Agrees env sight) where
  pure _ _ _ := ⟨rfl, rfl⟩
  bind := bind
  catalog hfg _ := hfg env.catalog
  defaultSchema _ _ := ⟨rfl, rfl⟩
  bindings _ _ := ⟨rfl, rfl⟩
  lookup _ _ _ := ⟨rfl, rfl⟩
  expand _ _ _ := ⟨rfl, rfl⟩

theorem get {f g : Context → Analysis α}
    (h : ∀ c, κ.Covers sight c → κ.Agrees env sight (f c) (g (c.complete κ))) :
    κ.Agrees env sight (MonadState.get >>= f) (MonadState.get >>= g) := fun c hc => h c hc c hc

theorem defaultSchema {f g : String → Analysis α}
    (h : κ.Agrees env sight (f env.config.defaultSchema) (g env.config.defaultSchema)) :
    κ.Agrees env sight (defaultSchema >>= f) (defaultSchema >>= g) := fun c hc => h c hc

theorem catalog {f g : Catalog → Analysis α}
    (h : κ.Agrees env sight (f env.catalog) (g env.catalog)) :
    κ.Agrees env sight (catalog >>= f) (catalog >>= g) := fun c hc => h c hc

theorem mono {more : List String} (h : κ.Agrees env more x y)
    (hs : ∀ c, κ.Covers sight c → κ.Covers more c) :
    κ.Agrees env sight x y := fun c hc => h c (hs c hc)

theorem addEntry (e : Entry) (names : List String) :
    κ.Agrees env sight (addEntry e names) (addEntry e names) :=
  fun _ _ => ⟨rfl, rfl⟩

theorem between {inside : List String} {before before' after : Context → Context}
    (hbefore : ∀ c, before' (c.complete κ) = (before c).complete κ)
    (hafter : ∀ c, after (c.complete κ) = (after c).complete κ)
    (hcovers : ∀ c, κ.Covers sight c → κ.Covers inside (before c))
    (hframes : ∀ c c', c'.cteFrames = (before c).cteFrames → (after c').cteFrames = c.cteFrames)
    (hx : κ.Agrees env inside x y) : κ.Agrees env sight (between before after x)
    (between before' after y) := by
  intro c hc
  obtain ⟨hxy, hkept⟩ := hx (before c) (hcovers c hc)
  rw [outcome_between, outcome_between, hbefore, hxy]
  exact ⟨Prod.ext rfl (hafter _), hframes c _ hkept⟩

theorem inScope (hx : κ.Agrees env sight x y) : κ.Agrees env sight (inScope x) (inScope y) :=
  between (fun _ => rfl) (fun _ => rfl) (fun _ hc => hc) (fun _ _ h => h) hx

theorem withCtes {q : Query} (hq : κ.Knows q) (hx : κ.Agrees env (Cte.keys q.ctes ++ sight) x y) :
    κ.Agrees env sight (withCtes q.ctes x) (withCtes (q.ctes.map (Cte.complete κ)) y) := by
  refine between (fun _ => rfl) (fun c => ?_) (fun _ hc => hc.pushCtes hq) (fun c c' h => ?_) hx
  · rw [Context.complete, Context.popCtes, ← List.map_tail]
    rfl
  · rw [Context.popCtes, h]
    rfl

theorem opening (hx : κ.Agrees env sight x y) : κ.Agrees env sight (opening x) (opening y) := by
  intro c hc
  have hdepth : (c.complete κ).depth = c.depth := rfl
  rw [outcome_opening, outcome_opening, hdepth]
  split
  · refine between ?_ ?_ ?_ ?_ hx c hc
    · exact fun _ => rfl
    · exact fun _ => rfl
    · exact fun _ hc => hc
    · exact fun _ _ h => h
  · exact ⟨rfl, rfl⟩

theorem computingCte (name : String) (hx : κ.Agrees env sight x y) :
    κ.Agrees env sight (computingCte name x) (computingCte name y) := by
  intro c hc
  rw [outcome_computingCte, outcome_computingCte]
  refine between ?_ ?_ ?_ ?_ hx c hc
  · intro c
    have hprogress : (c.complete κ).isCteInProgress name = c.isCteInProgress name := rfl
    rw [Context.beginCte, Context.beginCte, hprogress]
    split <;> rfl
  · exact fun _ => rfl
  · intro c hc
    rw [Context.beginCte]
    split <;> exact hc
  · intro c c' h
    rw [Context.beginCte] at h
    split at h <;> exact h

end Agrees

/-- Enters a function with its schema written out. -/
private def enterFunction (function : Name) (schema : String) (aliasName : Option String) :
    Analysis Unit := do
  let columns ← Analysis.functionColumns function
    { schema := some schema, table := some function.name, objectKind := some .function }
  let entry := { Entry.resolved function.name aliasName columns with
    schema := some schema, objectKind := some .function, isFunction := true }
  Analysis.addEntry entry (aliasName.toList ++ [function.name])

/-- To complete a name twice is to complete it once. -/
theorem inSchema_function (κ : Completion) (n : Name) :
    (κ.function n).inSchema κ.schema = n.inSchema κ.schema := by
  unfold function
  split <;> rfl

section

open Analysis

variable {n : Nested} (hκ : κ.Fits env)

include hκ

private theorem functionName_agrees (name : Name) :
    κ.Agrees env sight (functionName name) (functionName (κ.function name)) := by
  refine Agrees.defaultSchema ?_
  rw [hκ.config, inSchema_function]
  exact Agrees.congruence.pure _

private theorem addTable_agrees (name : Name) (aliasName : Option String) :
    κ.Agrees env sight (addTable name aliasName) (addTable (name.inSchema κ.schema) aliasName) := by
  have hkind : env.catalog.objectKind? (name.inSchema κ.schema) = env.catalog.objectKind? name := by
    rw [Catalog.objectKind?, Catalog.objectKind?, Catalog.schemaOf, Catalog.schemaOf, hκ.catalog]
    rfl
  refine Agrees.defaultSchema (Agrees.catalog ?_)
  rw [hκ.config, hkind]
  exact Agrees.addEntry _ _

omit hκ in
/-- A function is entered under its schema, too, unless it is `STRING_SPLIT`. -/
private theorem addFunction_eq {name : Name} (aliasName : Option String)
    (h : (name.schema.isNone && Text.same name.name "string_split") = false) :
    addFunction name aliasName = (do
      let schema := name.schema.getD (← defaultSchema)
      enterFunction { name with schema := some schema } schema aliasName) := by
  unfold addFunction enterFunction
  rw [h, if_neg Bool.false_ne_true]

private theorem addFunction_agrees (name : Name) (aliasName : Option String) :
    κ.Agrees env sight (addFunction name aliasName) (addFunction (κ.function name) aliasName) := by
  have h : Congruence (κ.Agrees env sight) := Agrees.congruence
  have henter (function : Name) (schema : String) :
      κ.Agrees env sight (enterFunction function schema aliasName)
        (enterFunction function schema aliasName) := by
    have hcolumns (owner : ColumnSource) :
        κ.Agrees env sight (functionColumns function owner) (functionColumns function owner) :=
      h.catalog (fun _ => h.pure _) fun hc => by simp only [hc.functionColumns?_eq, hc.ofRecord_eq]
    exact h.bind (hcolumns _) fun _ => Agrees.addEntry _ _
  have hself : κ.Agrees env sight (addFunction name aliasName) (addFunction name aliasName) := by
    unfold addFunction
    split
    · exact Agrees.addEntry _ _
    · exact Agrees.defaultSchema (henter { name with schema := some _ } _)
  unfold function
  split
  · exact hself
  · rename_i hown
    rw [Bool.or_eq_true, not_or, Bool.not_eq_true, Bool.not_eq_true] at hown
    have hsplit (other : Option String) :
        (other.isNone && Text.same name.name "string_split") = false := by
      rw [hown.2, Bool.and_false]
    rw [addFunction_eq aliasName (hsplit name.schema),
      addFunction_eq aliasName (hsplit (name.inSchema κ.schema).schema)]
    refine Agrees.defaultSchema ?_
    rw [hκ.config]
    exact henter { name with schema := some _ } _

omit hκ in
private theorem added_agrees {x y : Analysis Unit} (hx : κ.Agrees env sight x y) :
    κ.Agrees env sight (added x) (added y) :=
  Agrees.get fun _ _ => hx.bind fun _ => Agrees.get fun _ _ => Agrees.congruence.pure _

omit hκ in
private theorem addLocal_agrees (name : String) (aliasName : Option String) :
    κ.Agrees env sight (addLocal name aliasName) (addLocal name aliasName) :=
  Agrees.congruence.bind Agrees.congruence.bindings fun _ => Agrees.addEntry _ _

private theorem item_agrees (i : Item)
    (hq : ∀ q ∈ i.queries, κ.Agrees env sight (n.query q) (n.query (q.complete κ sight))) :
    κ.Agrees env sight (i.columns n) ((i.complete κ sight).columns n) := by
  have h : Congruence (κ.Agrees env sight) := Agrees.congruence
  cases i with
  | expr value aliasName =>
    rw [Item.complete]
    exact h.bind (value.meaning_complete h (functionName_agrees hκ) hq).column fun _ => h.pure _
  | star qualifier =>
    rw [Item.complete]
    exact h.bind (h.expand qualifier) fun _ => h.pure _
  | assign name value =>
    rw [Item.complete]
    exact h.pure _

section

variable (hctes : ∀ cte, κ.Knows cte.query →
  κ.Agrees env sight (cteColumns n cte) (cteColumns n (cte.complete κ)))

include hctes

/-- A name that is completed means no CTE, and one that stays finds the
same definition, completed. -/
private theorem addNamed_agrees (name : Name) (aliasName : Option String) :
    κ.Agrees env sight (addNamed n name aliasName) (addNamed n (κ.table sight name) aliasName) := by
  unfold table addNamed
  cases hlocal : name.isLocal with
  | true =>
    simp only [Bool.true_or, if_true, hlocal]
    exact addLocal_agrees name.name aliasName
  | false =>
    rw [Bool.false_or, if_neg Bool.false_ne_true]
    cases hsight :
      name.schema.isNone && name.catalog.isNone && sight.contains (Text.fold name.name) with
    | true =>
      rw [if_pos rfl, hlocal, if_neg Bool.false_ne_true]
      refine Agrees.get fun c hc => ?_
      rw [Context.cteNamed?_complete]
      cases hcte : c.cteNamed? name with
      | none => exact Agrees.defaultSchema (Agrees.catalog (Agrees.addEntry _ _))
      | some cte => exact (hctes cte (hc.knows hcte)).bind fun _ => Agrees.addEntry _ _
    | false =>
      have hqualified : (name.inSchema κ.schema).isLocal = false := rfl
      rw [if_neg Bool.false_ne_true, hqualified, if_neg Bool.false_ne_true]
      refine Agrees.get fun c hc => ?_
      rw [hc.cteNamed?_eq_none hsight]
      exact addTable_agrees hκ name aliasName

/-- A completed source is registered as the source is, if the queries in it agree. -/
private theorem register_agrees (s : Source)
    (hq : ∀ q ∈ s.queries, κ.Agrees env sight (n.query q) (n.query (q.complete κ sight))) :
    κ.Agrees env sight (s.register n) ((s.complete κ sight).register n) := by
  induction s using Source.register.induct with
  | case1 name aliasName =>
    rw [Source.complete]
    exact added_agrees (addNamed_agrees hκ hctes name aliasName)
  | case2 name aliasName =>
    rw [Source.complete]
    exact added_agrees (addLocal_agrees name aliasName)
  | case3 query aliasName columns =>
    rw [Source.complete]
    exact added_agrees ((hq query List.mem_cons_self).bind fun _ => Agrees.addEntry _ _)
  | case4 name args aliasName =>
    rw [Source.complete]
    exact added_agrees (addFunction_agrees hκ name aliasName)
  | case5 value path columns aliasName =>
    rw [Source.complete]
    exact added_agrees (Agrees.catalog (Agrees.addEntry _ _))
  | case6 kind left right on ihl ihr =>
    rw [Source.complete]
    have hl := ihl fun q hm => hq q (List.mem_append_left _ hm)
    have hr := ihr fun q hm => hq q (List.mem_append_right _ hm)
    have hmark (isNullable : Bool) (side : Nat × Nat) :
        κ.Agrees env sight (markSide isNullable side) (markSide isNullable side) := by
      unfold markSide
      split <;> exact fun _ _ => ⟨rfl, rfl⟩
    exact added_agrees (hl.bind fun l => hr.bind fun r => (hmark _ l).bind fun _ => hmark _ r)

private theorem select_agrees (s : Select)
    (hq : ∀ q ∈ s.queries, κ.Agrees env sight (n.query q) (n.query (q.complete κ sight))) :
    κ.Agrees env sight (s.project n) ((s.complete κ sight).project n) := by
  have h : Congruence (κ.Agrees env sight) := Agrees.congruence
  have hstar : (s.items.map (·.complete κ sight)).any Item.isStar = s.items.any Item.isStar := by
    rw [List.any_map]
    exact congrArg (List.any s.items) (funext fun i => i.isStar_complete)
  unfold Select.project Item.projectAll
  rw [Select.sources_complete, Select.items_complete, hstar, List.forM_eq_forM, List.forM_map,
    List.mapM_map]
  refine h.bind (h.forM fun t ht => h.map (register_agrees hκ hctes t fun q hm => hq q ?_) _)
    fun _ => ?_
  · exact List.mem_append_left _ (List.mem_flatMap.2 ⟨t, ht, hm⟩)
  · refine h.bind
      (h.mapM (S := fun i j => i = j ∧ i ∈ s.items) ?_ (List.forall₂_same.2 fun i hi => ⟨rfl, hi⟩))
      fun _ => h.pure _
    rintro i _ ⟨rfl, hi⟩
    exact item_agrees hκ i fun q hm =>
      hq q (List.mem_append_right _ (List.mem_flatMap.2 ⟨i, hi, hm⟩))

private theorem body_agrees (b : Body)
    (hq : ∀ q ∈ b.queries, κ.Agrees env sight (n.query q) (n.query (q.complete κ sight))) :
    κ.Agrees env sight (b.project n) ((b.complete κ sight).project n) := by
  have h : Congruence (κ.Agrees env sight) := Agrees.congruence
  induction b using Body.project.induct with
  | case1 block =>
    rw [Body.complete]
    exact Agrees.inScope (select_agrees hκ hctes block hq)
  | case2 query =>
    rw [Body.complete]
    exact h.bind (hq query List.mem_cons_self) fun _ => h.pure _
  | case3 op left right ihl ihr =>
    rw [Body.complete]
    have hl := ihl fun q hm => hq q (List.mem_append_left _ hm)
    have hr := ihr fun q hm => hq q (List.mem_append_right _ hm)
    exact h.bind hl fun l => h.bind hr fun r => h.pure (l.union r)

end

omit hκ in
/-- The columns of a CTE are found alike if its definition and the leftmost branch
of that are resolved alike. -/
private theorem cteColumns_agrees {cte : Cte}
    (hq : κ.Agrees env κ.defined (n.query cte.query) (n.query (cte.complete κ).query))
    (ha : κ.Agrees env κ.defined (n.anchor cte.query) (n.anchor (cte.complete κ).query)) :
    κ.Agrees env sight (cteColumns n cte) (cteColumns n (cte.complete κ)) := by
  have hcompute : κ.Agrees env κ.defined (computeCte n cte) (computeCte n (cte.complete κ)) := by
    have h : Congruence (κ.Agrees env κ.defined) := Agrees.congruence
    have hset := h.bind hq fun set => h.pure (ColumnMap.ofColumns set.columns cte.columns)
    have hsetOp : (cte.complete κ).query.body.isSetOp = cte.query.body.isSetOp := by
      rw [Cte.complete, Query.body_complete, Body.isSetOp_complete]
    unfold computeCte
    rw [hsetOp]
    dsimp only
    split
    · exact h.bind ha fun anchor => h.bind (fun _ _ => ⟨rfl, rfl⟩) fun _ => hset
    · exact hset
  unfold cteColumns
  refine Agrees.get fun c _ => ?_
  have hcached : (c.complete κ).cachedCte? (cte.complete κ).name = c.cachedCte? cte.name := rfl
  have hprogress :
      (c.complete κ).isCteInProgress (cte.complete κ).name = c.isCteInProgress cte.name := rfl
  rw [hcached, hprogress]
  split
  · exact Agrees.congruence.pure _
  · split
    · exact Agrees.congruence.pure _
    · refine ((Agrees.computingCte cte.name hcompute).mono fun _ hc => hc.defined).bind
        fun columns => ?_
      exact Agrees.bind (fun _ _ => ⟨rfl, rfl⟩) fun _ => Agrees.congruence.pure columns

omit hκ in
/-- What is made of the columns of a query looks at nothing that is completed. -/
private theorem resolveWith_complete (n : Nested) (q : Query) :
    (q.complete κ sight).resolveWith n = (do
      let projection ← withCtes (q.ctes.map (Cte.complete κ))
          ((q.body.complete κ (Cte.keys q.ctes ++ sight)).project n)
      let set := projection.resultSet
      return (q.forJson? (← read).config).elim set (set.asDocument q)) := by
  have hdocument (set : ResultSet) : set.asDocument (q.complete κ sight) = set.asDocument q := by
    funext f
    rw [ResultSet.asDocument, ResultSet.asDocument, Query.singleRow_complete]
  unfold Query.resolveWith
  simp only [Query.ctes_complete, Query.body_complete, Query.forJson?_complete, hdocument]

/-- A completed query, and its leftmost branch, agree with the query, however many
queries may still be opened. -/
theorem within_agrees (k : Nat) (q : Query) (hq : κ.Knows q) (sight : List String) :
    κ.Agrees env sight ((Nested.within k).query q) ((Nested.within k).query (q.complete κ sight)) ∧
      κ.Agrees env sight ((Nested.within k).anchor q)
        ((Nested.within k).anchor (q.complete κ sight)) := by
  induction k generalizing q sight with
  | zero => exact ⟨fun _ _ => ⟨rfl, rfl⟩, fun _ _ => ⟨rfl, rfl⟩⟩
  | succ k ih =>
    have hctes (sight : List String) (cte : Cte) (hcte : κ.Knows cte.query) :
        κ.Agrees env sight (cteColumns (Nested.within k) cte)
          (cteColumns (Nested.within k) (cte.complete κ)) :=
      cteColumns_agrees (ih cte.query hcte κ.defined).1 (ih cte.query hcte κ.defined).2
    let inside := Cte.keys q.ctes ++ sight
    have hbody : κ.Agrees env inside (q.body.project (Nested.within k))
        ((q.body.complete κ inside).project (Nested.within k)) :=
      body_agrees hκ (hctes inside) q.body fun r hr => (ih r (hq.of_mem_body hr) inside).1
    have hleftmost : κ.Agrees env inside (q.body.leftmost.project (Nested.within k))
        ((q.body.complete κ inside).leftmost.project (Nested.within k)) := by
      rw [Body.leftmost_complete]
      exact body_agrees hκ (hctes inside) q.body.leftmost fun r hr =>
        (ih r (hq.of_mem_body (Body.queries_leftmost_subset q.body hr)) inside).1
    constructor
    · refine Agrees.opening ?_
      rw [resolveWith_complete]
      exact (Agrees.withCtes hq hbody).bind fun _ _ _ => ⟨rfl, rfl⟩
    · refine Agrees.opening ?_
      unfold Query.anchorWith
      rw [Query.body_complete]
      -- The leftmost branch does not see the query's own `WITH` clause, of which the names stay as
      -- they are.
      exact (hleftmost.mono fun _ hc => hc.mono (List.subset_append_right _ _)).bind fun _ =>
        Agrees.congruence.pure _

/-- Where no CTE is in sight, a completed query comes to what the query comes to. -/
theorem outcome_query_complete {k : Nat} {q : Query} (hq : κ.Knows q) (hc : c.cteFrames = []) :
    ((Nested.within k).query (q.complete κ [])).outcome env c =
      ((Nested.within k).query q).outcome env c := by
  have hself {c : Context} (hc : c.cteFrames = []) : c.complete κ = c := by
    rw [Context.complete, hc, List.map_nil, ← hc]
  have hcovers : κ.Covers [] c := by
    rw [Covers, hc]
    exact fun _ hm => nomatch hm
  obtain ⟨heq, hframes⟩ := (within_agrees hκ k q hq []).1 c hcovers
  rw [hself hc] at heq
  exact heq.trans (Prod.ext rfl (hself (hframes.trans hc)))

end

end Completion

end ResultShape
