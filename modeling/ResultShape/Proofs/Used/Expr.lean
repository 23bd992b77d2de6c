import ResultShape.Proofs.Sql.Places
import ResultShape.Proofs.Used.Context
/-! Expressions over used objects: an expression gives a column that mentions only what its
surroundings, the queries in it and the functions that it calls mention. -/
namespace ResultShape

theorem Expr.calls_unnested (e : Expr) : e.unnested.calls = e.calls := by
  induction e using Expr.unnested.induct with
  | case1 inner ih => rw [unnested_paren, calls, ih]
  | case2 e he =>
    rw [unnested]
    exact he

/-- The object of a name in its schema is used, with the catalog of the name and without it. -/
def Name.UsedAs (used : Reference → Prop) (env : Env) (kind : ObjectKind) (n : Name) : Prop :=
  ∀ catalog, catalog = none ∨ catalog = n.catalog →
    used ⟨kind, catalog, some (n.schema.getD env.config.defaultSchema), n.name⟩

/-- The action gives a column that mentions only what is used. -/
abbrev Analysis.GivesUsed (used : Reference → Prop) (frames : List (List Cte)) (env : Env)
    (x : Analysis ResultColumn) : Prop :=
  Analysis.MentionsOnly used frames env (ResultColumn.MentionsOnly used) x

/-- The columns that the surroundings may get of a meaning mention only what is used. -/
structure Meaning.MentionsOnly (used : Reference → Prop) (frames : List (List Cte)) (env : Env)
    (m : Meaning) :
    Prop where
  column : Analysis.GivesUsed used frames env m.column
  typed : Analysis.MentionsOnly used frames env (fun _ => True) m.typed
  operand : ∀ x, m.operand.item = some x → Analysis.GivesUsed used frames env x
  operands : ∀ o ∈ m.operands, ∀ x, o.item = some x → Analysis.GivesUsed used frames env x
  arrayItem : ∀ x, m.arrayItem = some x → Analysis.GivesUsed used frames env x

/-- An argument whose meaning mentions only what is used, and that calls only functions that are. -/
structure Meaning.UsedArg (used : Reference → Prop) (frames : List (List Cte)) (env : Env)
    (p : Expr × Meaning) :
    Prop where
  calls : ∀ n ∈ p.1.calls, n.UsedAs used env .function
  meaning : p.2.MentionsOnly used frames env

variable {used : Reference → Prop} {env : Env} {frames : List (List Cte)}

namespace Meaning.MentionsOnly

open Analysis

variable {m : Meaning} {ms : List Meaning} {os : List Operand}

theorem ofColumn {x : Analysis ResultColumn} (hx : GivesUsed used frames env x) :
    (Meaning.ofColumn x).MentionsOnly used frames env := by
  have hitem : ∀ y, some x = some y → GivesUsed used frames env y := by
    rintro y ⟨⟩
    exact hx
  exact ⟨hx, hx.bind fun _ _ => .pure trivial, hitem,
    List.forall_mem_singleton.2 hitem, unmentioned⟩

theorem ofLiteral (value : Literal) : (Meaning.ofLiteral value).MentionsOnly used frames env := by
  have hx : GivesUsed used frames env (pure value.column) := .pure (.literal value)
  have hitem : ∀ y, some (pure value.column : Analysis ResultColumn) = some y →
      GivesUsed used frames env y := by
    rintro y ⟨⟩
    exact hx
  exact ⟨hx, .pure trivial, hitem, List.forall_mem_singleton.2 hitem, unmentioned⟩

private theorem withTyped (hm : m.MentionsOnly used frames env) {x : Analysis Bool}
    (hx : Analysis.MentionsOnly used frames env (fun _ => True) x) :
    (m.withTyped x).MentionsOnly used frames env :=
  ⟨hm.column, hx, hm.operand, hm.operands, hm.arrayItem⟩

private theorem bracketed (ho : ∀ o ∈ os, ∀ x, o.item = some x → GivesUsed used frames env x) :
    ∀ x, Meaning.bracketed os = some x → GivesUsed used frames env x := by
  intro x hx
  unfold Meaning.bracketed at hx
  split at hx
  · split at hx
    · exact ho _ (by simp) x hx
    · cases hx
  · cases hx

private theorem withOperands (hm : m.MentionsOnly used frames env)
    (ho : ∀ o ∈ os, ∀ x, o.item = some x → GivesUsed used frames env x) :
    (m.withOperands os).MentionsOnly used frames env :=
  ⟨hm.column, hm.typed, hm.operand, ho, bracketed ho⟩

private theorem withConcat (hm : m.MentionsOnly used frames env)
    (ho : ∀ o ∈ os, ∀ x, o.item = some x → GivesUsed used frames env x) :
    (m.withConcat os).MentionsOnly used frames env :=
  ⟨hm.column, hm.typed, hm.operand, hm.operands, bracketed ho⟩

private theorem withItem (hm : m.MentionsOnly used frames env)
    {item : Option (Analysis ResultColumn)}
    (hi : ∀ x, item = some x → GivesUsed used frames env x) :
    (m.withItem item).MentionsOnly used frames env :=
  ⟨hm.column, hm.typed, hi, List.forall_mem_singleton.2 hi, hm.arrayItem⟩

private theorem anyTyped (hs : ∀ m ∈ ms, m.MentionsOnly used frames env) :
    Analysis.MentionsOnly used frames env (fun _ => True) (Meaning.anyTyped ms) := by
  induction ms with
  | nil => exact .pure trivial
  | cons m ms ih =>
    obtain ⟨hm, hs⟩ := List.forall_mem_cons.1 hs
    refine hm.typed.bind fun typed _ => ?_
    cases typed
    · exact ih hs
    · exact .pure trivial

end Meaning.MentionsOnly

namespace Analysis.GivesUsed

open Analysis

variable {m : Meaning} {ms : List Meaning} {args : List (Expr × Meaning)} {p : Expr × Meaning}
  {name : Name}

private theorem meanings (hs : ∀ p ∈ args, Meaning.UsedArg used frames env p) :
    ∀ m ∈ args.map (·.2), m.MentionsOnly used frames env := by
  intro m hm
  obtain ⟨p, hp, rfl⟩ := List.mem_map.1 hm
  exact (hs p hp).meaning

private theorem columns (hs : ∀ m ∈ ms, m.MentionsOnly used frames env) :
    Analysis.MentionsOnly used frames env (fun cs => ∀ c ∈ cs, c.MentionsOnly used) (columns ms) :=
  Stays.mapM fun m hm => (hs m hm).column

private theorem aggregateOperand (e : Expr) (hm : m.MentionsOnly used frames env) :
    Analysis.MentionsOnly used frames env (fun _ => True) (aggregateOperand e m) := by
  unfold Analysis.aggregateOperand
  split
  · exact .pure trivial
  · refine hm.column.bind fun _ _ => ?_
    split
    · exact hm.typed.bind fun _ _ => .pure trivial
    · exact .pure trivial

private theorem aggregateCall (name : Name) (windowed : Bool) {arg : Option (Expr × Meaning)}
    (ha : ∀ p, arg = some p → Meaning.UsedArg used frames env p) :
    GivesUsed used frames env (aggregateCall name windowed arg) := by
  have htyped (operand : AggregateOperand) (aggregate : Option String) :
      let typing := (AggregateRegistry.standard.infer? (Text.fold name.name) operand).getD {}
      ResultColumn.MentionsOnly used { sqlType := typing.sqlType, isNullable := typing.isNullable,
                                       aggregate } :=
    .plain _ _ _ _ _ _ _ _
  unfold Analysis.aggregateCall
  cases arg with
  | none => exact .pure (htyped {} _)
  | some p =>
    exact (aggregateOperand p.1 (ha p rfl).meaning).bind fun operand _ => .pure (htyped operand _)

private theorem fixedCall (name : Name) (sqlType : SqlType) (isNullable : Option Bool)
    (hs : ∀ m ∈ ms, m.MentionsOnly used frames env) :
    GivesUsed used frames env (fixedCall name sqlType isNullable ms) := by
  unfold Analysis.fixedCall
  split
  · exact .pure (.plain _ _ _ _ _ _ _ _)
  · exact (columns fun m hm => hs m (List.mem_of_mem_drop hm)).bind fun _ _ =>
      .pure (.plain _ _ _ _ _ _ _ _)

private theorem reference (hn : name.UsedAs used env .function) (r : Reference)
    (hr : some (Reference.ofName .function (name.inSchema env.config.defaultSchema)) = some r) :
    used r := by
  cases hr
  exact hn _ (.inr rfl)

private theorem userDefinedCall (hn : name.UsedAs used env .function) :
    GivesUsed used frames env (userDefinedCall name) :=
  Stays.bind (Stays.defaultSchema (.pure rfl)) fun _ hf =>
    .pure ⟨hf ▸ reference hn, unmentioned, unmentioned, List.forall_mem_nil _⟩

private theorem jsonValue (hm : m.MentionsOnly used frames env) :
    GivesUsed used frames env (jsonValue m) := by
  unfold Analysis.jsonValue
  split
  · rename_i item hitem
    exact (hm.arrayItem item hitem).bind fun _ hc => .pure hc.arrayOf
  · exact hm.column.bind fun _ hc => .pure (hc.asJson true)

variable (ht : env.catalog.TypesUsed used)

include ht

private theorem columnRef (ref : ColumnRef) : GivesUsed used frames env (columnRef ref) := by
  unfold Analysis.columnRef
  split
  · exact .pure (.plain _ _ _ _ _ _ _ _)
  · refine (Analysis.MentionsOnly.lookup ht ref).bind fun found hfound => ?_
    split
    · exact .pure ((hfound _ rfl).of_same rfl rfl rfl rfl)
    · exact .pure (.plain _ _ _ _ _ _ _ _)
    · exact .pure (.plain _ _ _ _ _ _ _ _)

omit ht in
private theorem variableColumn (name : String) :
    GivesUsed used frames env (variableColumn name) := by
  unfold Analysis.variableColumn
  split
  · split <;> exact .pure (.plain _ _ _ _ _ _ _ _)
  · refine Stays.bindings fun c hc => ?_
    split
    · rename_i facts hfacts
      exact .pure (.typed (hc.scalars.get? hfacts) _ _ _)
    · exact .pure (.plain _ _ _ _ _ _ _ _)

private theorem wrappedCall (hn : name.UsedAs used env .function) :
    GivesUsed used frames env (wrappedCall name) := by
  refine Stays.bind (Stays.defaultSchema (.pure rfl)) fun function hf => .catalog (.pure ?_)
  refine ⟨hf ▸ reference hn, unmentioned, unmentioned, ResultColumn.mentionsOfAll_iff.2 ?_⟩
  dsimp only
  cases env.catalog.functionColumns? function with
  | none => exact List.forall_mem_nil _
  | some records =>
    intro c hc
    obtain ⟨r, -, rfl⟩ := List.mem_map.1 hc
    exact .typed (ht ⟨r.type, r.maxLength, r.precision, r.scale⟩) _ _ _

private theorem jsonArgument (hp : Meaning.UsedArg used frames env p) :
    GivesUsed used frames env (jsonArgument p.1 p.2) := by
  unfold Analysis.jsonArgument
  split
  · exact hp.meaning.column.bind fun _ hc => .pure (hc.asJson _)
  · rename_i name _ _ _ hcall
    split
    · rename_i huser
      have hnone : BuiltinRule.ofCall? name = none := by
        unfold isUserDefined at huser
        unfold BuiltinRule.ofCall?
        cases hs : name.schema <;> simp_all
      refine wrappedCall ht (hp.calls name ?_)
      rw [← Expr.calls_unnested, hcall, Expr.calls, hnone]
      simp
    · exact jsonValue hp.meaning
  · exact jsonValue hp.meaning

private theorem jsonQuery {arg : Option (Expr × Meaning)}
    (ha : ∀ p, arg = some p → Meaning.UsedArg used frames env p) :
    GivesUsed used frames env (jsonQuery arg) := by
  unfold Analysis.jsonQuery
  cases arg with
  | none =>
    exact Stays.bind (.pure (.asJson (.plain _ _ _ _ _ _ _ _) true)) fun _ hc =>
      .pure (.jsonFragment hc)
  | some p => exact (jsonArgument ht (ha p rfl)).bind fun _ hc => .pure hc.jsonFragment

private theorem builtinCall (name : Name) (windowed : Bool) (rule : BuiltinRule)
    (hs : ∀ p ∈ args, Meaning.UsedArg used frames env p) :
    GivesUsed used frames env (builtinCall name windowed args rule) := by
  have hcolumns := columns (meanings hs)
  have hfirst (p : Expr × Meaning) (hp : args.head? = some p) : Meaning.UsedArg used frames env p :=
    hs p (List.mem_of_mem_head? hp)
  cases rule with
  | aggregate => exact aggregateCall name windowed hfirst
  | fixed sqlType isNullable => exact fixedCall name sqlType isNullable (meanings hs)
  | passThrough argument =>
    simp only [Analysis.builtinCall]
    split
    · rename_i hp
      exact (hs _ (List.mem_of_getElem? hp)).meaning.column.bind fun _ hc =>
        .pure (hc.of_same rfl rfl rfl rfl)
    · exact .pure (.plain _ _ _ _ _ _ _ _)
  | unboundedText => exact .pure (.plain _ _ _ _ _ _ _ _)
  | jsonQuery => exact jsonQuery ht hfirst
  | isNull => exact hcolumns.bind fun _ hcs => .pure (.isNull hcs)
  | coalesce => exact hcolumns.bind fun _ hcs => .pure (.coalesce hcs)
  | nullif =>
    simp only [Analysis.builtinCall]
    split
    · obtain ⟨hl, hs⟩ := List.forall_mem_cons.1 hs
      obtain ⟨hr, -⟩ := List.forall_mem_cons.1 hs
      exact hl.meaning.column.bind fun _ hc => hr.meaning.column.bind fun _ _ => .pure hc.nullif
    · exact .pure (.plain _ _ _ _ _ _ _ _)

private theorem call (name : Name) (windowed : Bool)
    (hn : BuiltinRule.ofCall? name = none → name.UsedAs used env .function)
    (hs : ∀ p ∈ args, Meaning.UsedArg used frames env p) :
    GivesUsed used frames env (call name windowed args) := by
  unfold Analysis.call
  split
  · exact builtinCall ht name windowed _ hs
  · rename_i hnone
    exact userDefinedCall (hn hnone)

omit ht in
private theorem conditional (hasElse : Bool) (hs : ∀ p ∈ args, Meaning.UsedArg used frames env p) :
    GivesUsed used frames env (conditional args hasElse) := by
  have hcandidates : Analysis.MentionsOnly used frames env
      (fun bs : List ResultColumn.Candidate => ∀ b ∈ bs, b.column.MentionsOnly used)
      (args.mapM fun b => return ⟨b.1, ← b.2.column⟩) :=
    Stays.mapM fun p hp => (hs p hp).meaning.column.bind fun _ hc => .pure hc
  exact hcandidates.bind fun _ hbs => .pure (.conditional hbs hasElse)

end Analysis.GivesUsed

namespace Meaning.MentionsOnly

open Analysis

variable {args : List (Expr × Meaning)} {m l : Meaning}

private theorem ofCall (ht : env.catalog.TypesUsed used) (name : Name) (windowed : Bool)
    (hn : BuiltinRule.ofCall? name = none → name.UsedAs used env .function)
    (hs : ∀ p ∈ args, UsedArg used frames env p) :
    (Meaning.ofCall name windowed args).MentionsOnly used frames env := by
  have hm := ofColumn (GivesUsed.call ht name windowed hn hs)
  unfold Meaning.ofCall
  dsimp only
  split
  · exact hm
  · split
    · refine hm.withConcat fun o ho => ?_
      obtain ⟨p, hp, rfl⟩ := List.mem_map.1 ho
      exact (hs p hp).meaning.operand
    · split
      · refine hm.withItem fun x hx => ?_
        obtain ⟨p, hp, rfl⟩ := Option.map_eq_some_iff.1 hx
        exact (hs p (List.mem_of_mem_head? hp)).meaning.column
      · exact hm

private theorem ofBranches (hasElse : Bool) (hs : ∀ p ∈ args, UsedArg used frames env p) :
    (Meaning.ofBranches args hasElse).MentionsOnly used frames env :=
  (ofColumn (GivesUsed.conditional hasElse hs)).withTyped (anyTyped (GivesUsed.meanings hs))

private theorem ofBinary (op : BinaryOp) (hl : l.MentionsOnly used frames env)
    (hm : m.MentionsOnly used frames env) :
    (Meaning.ofBinary op l m).MentionsOnly used frames env := by
  have hc : (Meaning.ofColumn do return .binary op (← l.column) (← m.column)).MentionsOnly
      used frames env :=
    ofColumn (hl.column.bind fun _ ha => hm.column.bind fun _ hb => .pure (.binary op ha hb))
  have ht := hc.withTyped (anyTyped (List.forall_mem_cons.2 ⟨hl, List.forall_mem_singleton.2 hm⟩))
  unfold Meaning.ofBinary
  dsimp only
  split
  · exact ht.withOperands (List.forall_mem_append.2 ⟨hl.operands, hm.operands⟩)
  · exact ht

private theorem ofUnary (op : UnaryOp) (hm : m.MentionsOnly used frames env) :
    (Meaning.ofUnary op m).MentionsOnly used frames env :=
  (ofColumn (hm.column.bind fun c _ => .pure (.unary op c))).withTyped hm.typed

private theorem ofCast (ht : env.catalog.TypesUsed used) (kind : CastKind) (target : DataType)
    (hm : m.MentionsOnly used frames env) :
    (Meaning.ofCast kind target m).MentionsOnly used frames env :=
  ofColumn (hm.column.bind fun _ hc => .catalog (.pure (hc.cast kind (ht target))))

private theorem ofCoalesce (hs : ∀ p ∈ args, UsedArg used frames env p) :
    (Meaning.ofCoalesce (args.map (·.2))).MentionsOnly used frames env :=
  (ofColumn
    ((GivesUsed.columns (GivesUsed.meanings hs)).bind fun _ hcs => .pure (.coalesce hcs))).withTyped
    (anyTyped (GivesUsed.meanings hs))

private theorem ofNullif (hl : l.MentionsOnly used frames env)
    (hm : m.MentionsOnly used frames env) : (Meaning.ofNullif l m).MentionsOnly used frames env :=
  ofColumn (hl.column.bind fun _ hc => hm.column.bind fun _ _ => .pure hc.nullif)

end Meaning.MentionsOnly

/-- The queries resolve to result sets that mention only what is used. -/
def Nested.QueriesUsed (used : Reference → Prop) (frames : List (List Cte)) (env : Env)
    (nested : Nested) (qs : List Query) : Prop :=
  ∀ q ∈ qs, Analysis.MentionsOnly used frames env (ResultSet.MentionsOnly used) (nested.query q)

section

open Meaning.MentionsOnly

variable (ht : env.catalog.TypesUsed used) {nested : Nested}

include ht

theorem Meaning.MentionsOnly.of_expr (e : Expr) (hq : nested.QueriesUsed used frames env e.queries)
    (hn : ∀ n ∈ e.calls, n.UsedAs used env .function) :
    (e.meaning nested).MentionsOnly used frames env := by
  -- the optional branch, the branches and the arguments follow one by one
  induction e using Expr.meaning.induct
    (motive_2 := fun o => nested.QueriesUsed used frames env (otherwiseQueries o) →
      (∀ n ∈ otherwiseCalls o, n.UsedAs used env .function) →
      ∀ p ∈ Expr.otherwiseMeaning nested o, Meaning.UsedArg used frames env p)
    (motive_3 := fun bs => nested.QueriesUsed used frames env (branchesQueries bs) →
      (∀ n ∈ branchesCalls bs, n.UsedAs used env .function) →
      ∀ p ∈ Expr.branchMeanings nested bs, Meaning.UsedArg used frames env p)
    (motive_4 := fun es => nested.QueriesUsed used frames env (argsQueries es) →
      (∀ n ∈ argsCalls es, n.UsedAs used env .function) →
      ∀ p ∈ Expr.meanings nested es, Meaning.UsedArg used frames env p)
  all_goals simp only [Nested.QueriesUsed, Expr.queries, argsQueries, branchesQueries,
    otherwiseQueries, Expr.calls,
    argsCalls, branchesCalls, otherwiseCalls, List.mem_append, List.mem_cons, List.not_mem_nil,
    or_false, or_imp,
    forall_and, forall_eq, Expr.meaning, Expr.meanings, Expr.branchMeanings,
    Expr.otherwiseMeaning] at *
  case case1 ref => exact ofColumn (Analysis.GivesUsed.columnRef ht ref)
  case case2 value => exact ofLiteral value
  case case3 name => exact ofColumn (Analysis.GivesUsed.variableColumn name)
  case case5 ih => exact ofCast ht _ _ (ih hq hn)
  case case6 name args _ windowed ih =>
    refine ofCall ht name windowed (fun hnone => hn.1 name ?_) (ih hq hn.2)
    rw [hnone]
    exact List.mem_singleton_self name
  case case7 ihy ihn =>
    refine ofBranches true (List.forall_mem_cons.2 ⟨?_, List.forall_mem_singleton.2 ?_⟩)
    · exact ⟨hn.1, ihy hq.1 hn.1⟩
    · exact ⟨hn.2, ihn hq.2 hn.2⟩
  case case8 ihb iho => exact ofBranches _ (List.forall_mem_append.2 ⟨ihb hq.1 hn.1, iho hq.2 hn.2⟩)
  case case9 ihl ihr => exact ofBinary _ (ihl hq.1 hn.1) (ihr hq.2 hn.2)
  case case10 ih => exact ofUnary _ (ih hq hn)
  case case11 ih => exact ofCoalesce (ih hq hn)
  case case12 ihl ihr => exact ofNullif (ihl hq.1 hn.1) (ihr hq.2 hn.2)
  case case13 => exact ofColumn (hq.bind fun _ hs => .pure (.ofSubquery hs))
  case case17 ih => exact ih hq hn
  case case20 ihe ihs p hq hn hp =>
    rcases hp with rfl | hp
    · exact ⟨hn.1, ihe hq.1 hn.1⟩
    · exact ihs hq.2 hn.2 p hp
  case case22 ih hq hn p hp =>
    subst hp
    exact ⟨hn, ih hq hn⟩
  case case24 ihe ihs p hq hn hp =>
    rcases hp with rfl | hp
    · exact ⟨hn.1, ihe hq.1 hn.1⟩
    · exact ihs hq.2 hn.2 p hp
  -- what is left has a type whatever it asks
  all_goals exact ofColumn (.pure (.plain _ _ _ _ _ _ _ _))

/-- An expression gives a column that mentions only what is used. -/
theorem Analysis.GivesUsed.resolve (e : Expr) (hq : nested.QueriesUsed used frames env e.queries)
    (hn : ∀ n ∈ e.calls, n.UsedAs used env .function) :
    Analysis.GivesUsed used frames env (e.resolve nested) :=
  (Meaning.MentionsOnly.of_expr ht e hq hn).column

theorem Analysis.MentionsOnly.projectAll (is : List Item)
    (hq : nested.QueriesUsed used frames env (is.flatMap Item.queries))
    (hn : ∀ n ∈ is.flatMap Item.calls, n.UsedAs used env .function) :
    Analysis.MentionsOnly used frames env (fun p => ∀ c ∈ p.columns, c.MentionsOnly used)
      (Item.projectAll nested is) := by
  have hitem (i : Item) (hi : i ∈ is) :
      Analysis.MentionsOnly used frames env (fun cs => ∀ c ∈ cs, c.MentionsOnly used)
        (i.columns nested) := by
    cases i with
    | expr value aliasName =>
      have hvalue : Analysis.GivesUsed used frames env (value.resolve nested) :=
        .resolve ht value (fun q hm => hq q (List.mem_flatMap.2 ⟨_, hi, hm⟩)) fun n hm =>
          hn n (List.mem_flatMap.2 ⟨_, hi, hm⟩)
      exact hvalue.bind fun _ hc => .pure (List.forall_mem_singleton.2 (hc.of_same rfl rfl rfl rfl))
    | star qualifier => exact .star ht qualifier
    | assign name value => exact .pure (List.forall_mem_nil _)
  refine (Stays.mapM hitem).bind fun css hcss => .pure fun c hc => ?_
  obtain ⟨cs, hcs, hc⟩ := List.mem_flatten.1 hc
  exact hcss cs hcs c hc

end

end ResultShape
