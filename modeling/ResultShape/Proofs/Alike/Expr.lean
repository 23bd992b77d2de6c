import ResultShape.Proofs.Alike.Analysis
import ResultShape.Proofs.Analysis.Forms
/-! Alike expressions: an expression and the expression rewritten mean the same
to whatever is around them. -/
namespace ResultShape

namespace Likeness

variable {L : Likeness} {env : Env}

section
variable (L env)

structure Operand (o o' : ResultShape.Operand) : Prop where
  literal : o.literal = o'.literal
  item : Option.Rel (L.Agree env L.Column) o.item o'.item

/-- What the surroundings may ask of one meaning agrees with what they get of the other. -/
structure Meaning (m m' : ResultShape.Meaning) : Prop where
  column : L.Agree env L.Column m.column m'.column
  typed : L.Agree env Eq m.typed m'.typed
  operand : L.Operand env m.operand m'.operand
  operands : List.Forall₂ (L.Operand env) m.operands m'.operands
  arrayItem : Option.Rel (L.Agree env L.Column) m.arrayItem m'.arrayItem

/-- An argument that stands in the place of another one. -/
structure Arg (p p' : Expr × ResultShape.Meaning) : Prop where
  head : p'.1.head = p.1.head.rewrite L.rewriting
  literalHint : p'.1.literalHint = p.1.literalHint
  meaning : L.Meaning env p.2 p'.2

end

namespace Meaning

open ResultShape.Meaning

variable {m m' : ResultShape.Meaning} {ms ms' : List ResultShape.Meaning}

private theorem ofColumn {x y : Analysis ResultColumn} (hx : L.Agree env L.Column x y) :
    L.Meaning env (.ofColumn x) (.ofColumn y) :=
  have ho : L.Operand env ⟨none, some x⟩ ⟨none, some y⟩ := ⟨rfl, .some hx⟩
  ⟨hx, hx.bind fun _ _ hc => .pure (by rw [hc.alike.sqlType]), ho, .cons ho .nil, .none⟩

private theorem ofLiteral (h : L.Lawful env) (value : Literal) :
    L.Meaning env (.ofLiteral value) (.ofLiteral value) :=
  have hc : L.Agree env L.Column (return value.column) (return value.column) :=
    .pure (.literal h value)
  have ho :
      L.Operand env ⟨some value, some (return value.column)⟩
        ⟨some value, some (return value.column)⟩ :=
    ⟨rfl, .some hc⟩
  ⟨hc, .pure rfl, ho, .cons ho .nil, .none⟩

private theorem withTyped (hm : L.Meaning env m m') {x y : Analysis Bool}
    (hx : L.Agree env Eq x y) :
    L.Meaning env (m.withTyped x) (m'.withTyped y) :=
  ⟨hm.column, hx, hm.operand, hm.operands, hm.arrayItem⟩

private theorem isBracket_eq (bracket : Char) {o o' : ResultShape.Operand}
    (ho : L.Operand env o o') :
    isBracket bracket o = isBracket bracket o' := by rw [isBracket, isBracket, ho.literal]

private theorem bracketed {os os' : List ResultShape.Operand}
    (ho : List.Forall₂ (L.Operand env) os os') :
    Option.Rel (L.Agree env L.Column) (bracketed os) (bracketed os') := by
  rcases ho with _ | ⟨h₁, _ | ⟨h₂, _ | ⟨h₃, _ | ⟨h₄, h₅⟩⟩⟩⟩
  case cons.cons.cons.nil =>
    simp only [ResultShape.Meaning.bracketed, isBracket_eq _ h₁, isBracket_eq _ h₃]
    split
    · exact h₂.item
    · exact .none
  all_goals exact .none

private theorem withOperands (hm : L.Meaning env m m') {os os' : List ResultShape.Operand}
    (ho : List.Forall₂ (L.Operand env) os os') : L.Meaning env (m.withOperands os)
    (m'.withOperands os') :=
  ⟨hm.column, hm.typed, hm.operand, ho, bracketed ho⟩

private theorem withConcat (hm : L.Meaning env m m') {os os' : List ResultShape.Operand}
    (ho : List.Forall₂ (L.Operand env) os os') : L.Meaning env (m.withConcat os)
    (m'.withConcat os') :=
  ⟨hm.column, hm.typed, hm.operand, hm.operands, bracketed ho⟩

private theorem withItem (hm : L.Meaning env m m') {i i' : Option (Analysis ResultColumn)}
    (hi : Option.Rel (L.Agree env L.Column) i i') : L.Meaning env (m.withItem i) (m'.withItem i') :=
  have ho : L.Operand env { m.operand with item := i } { m'.operand with item := i' } :=
    ⟨hm.operand.literal, hi⟩
  ⟨hm.column, hm.typed, ho, .cons ho .nil, hm.arrayItem⟩

private theorem anyTyped (hs : List.Forall₂ (L.Meaning env) ms ms') :
    L.Agree env Eq (anyTyped ms) (anyTyped ms') := by
  induction hs with
  | nil => exact .pure rfl
  | cons hm _ ih =>
    refine hm.typed.bind ?_
    rintro b _ rfl
    cases b
    · exact ih
    · exact .pure rfl

end Meaning

section Calls

open Analysis

variable {m m' : ResultShape.Meaning} {ms ms' : List ResultShape.Meaning}
  {args args' : List (Expr × ResultShape.Meaning)}
  (h : L.Lawful env)

private theorem meanings_of_args (hs : List.Forall₂ (L.Arg env) args args') :
    List.Forall₂ (L.Meaning env) (args.map (·.2)) (args'.map (·.2)) :=
  List.rel_map (fun _ _ hp => hp.meaning) hs

private theorem columns_agree (hs : List.Forall₂ (L.Meaning env) ms ms') :
    L.Agree env (List.Forall₂ L.Column) (columns ms) (columns ms') :=
  .mapM (fun _ _ hm => hm.column) hs

include h

theorem name_alike (n : Name) : n.Alike L.same (n.rewrite L.rewriting) :=
  ⟨rel_of_map _ h.name _, rel_of_map _ h.name _, h.name _⟩

theorem fold_name (s : String) : Text.fold (L.rewriting.name s) = Text.fold s :=
  (h.fold_eq (h.name s)).symm

theorem same_name (s t : String) : Text.same (L.rewriting.name s) t = Text.same s t := by
  rw [Text.same, fold_name h, Text.same]

omit h in
theorem isSome_schema_rewrite (ρ : Rewriting) (n : Name) :
    (n.rewrite ρ).schema.isSome = n.schema.isSome :=
  Option.isSome_map

private theorem columnRef_agree (ref : ColumnRef) :
    L.Agree env L.Column (columnRef ref) (columnRef (ref.rewrite L.rewriting)) := by
  unfold columnRef
  have haction :
      ((ref.rewrite L.rewriting).qualifier.isNone &&
        Text.same (ref.rewrite L.rewriting).name "$action") =
      (ref.qualifier.isNone && Text.same ref.name "$action") := by
    simp only [ColumnRef.rewrite, Option.isNone_map, same_name h]
  rw [haction]
  split
  · exact .pure (.plain h (h.name _) .none _ _ none)
  · refine Agree.bind (S := L.Lookup) (.fromScopes fun stack stack' hs => ?_)
      fun found found' hfound => ?_
    · exact Scopes.lookup h hs (rel_of_map _ h.name _) (rel_of_map _ h.name _) (h.name _)
    · cases hfound with
      | found hc => exact .pure (hc.renamed (h.name _))
      | ambiguous => exact .pure (.markAmbiguous h (h.name _))
      | unresolved => exact .pure (.plain h (h.name _) .none none none none)

private theorem globalVariable?_eq (name : String) :
    globalVariable? (L.rewriting.name name) = globalVariable? name := by
  unfold globalVariable?
  rw [fold_name h]

private theorem variableColumn_agree (name : String) :
    L.Agree env L.Column (variableColumn name) (variableColumn (L.rewriting.name name)) := by
  unfold variableColumn
  rw [globalVariable?_eq h, Text.startsWith_at_eq (fold_name h name)]
  split
  · split
    · exact .pure (.value h _ _)
    · exact .pure (.blank h)
  · refine Agree.bindings.bind fun b b' hb => ?_
    have hfacts := hb.scalars.get? (Text.fold name)
    rw [Bindings.scalar?, Bindings.scalar?, fold_name h]
    generalize b.scalars.get? (Text.fold name) = facts at hfacts
    generalize b'.scalars.get? (Text.fold name) = facts' at hfacts
    cases hfacts with
    | none => exact .pure (.blank h)
    | some hfacts =>
      obtain ⟨rfl, hholds⟩ := hfacts
      exact .pure (.ofFacts h "" hholds _)

private theorem functionName_agree (n : Name) :
    L.Agree env (Name.Alike L.same) (functionName n) (functionName (n.rewrite L.rewriting)) :=
  .defaultSchema (.pure
    ⟨rel_of_map _ h.name _, .some (rel_getD (rel_of_map _ h.name _) (h.refl _)), h.name _⟩)

omit h in
private theorem reference_alike {n n' : Name} (kind : ObjectKind) (hn : n.Alike L.same n') :
    (Reference.ofName kind n).Alike L.same (.ofName kind n') :=
  ⟨rfl, hn.catalog, hn.schema, hn.name⟩

private theorem userDefinedCall_agree (n : Name) :
    L.Agree env L.Column (userDefinedCall n) (userDefinedCall (n.rewrite L.rewriting)) :=
  (functionName_agree h n).bind fun _ _ hn =>
    .pure (.unnamed h none none (.some (reference_alike .function hn)) .none .nil)

private theorem wrappedCall_agree (n : Name) :
    L.Agree env L.Column (wrappedCall n) (wrappedCall (n.rewrite L.rewriting)) := by
  refine (functionName_agree h n).bind fun function function' hn => .catalog (.pure ?_)
  rw [← functionColumns?_eq h env.catalog hn]
  have hreference := reference_alike .function hn
  have hjson (shapeUnknown : Bool) : JsonInfo.Alike L.same { shapeUnknown } { shapeUnknown } :=
    ⟨rfl, .none, rfl, rfl, rfl⟩
  cases hrecords : env.catalog.functionColumns? function with
  | none => exact .unnamed h none none (.some hreference) (.some (hjson true)) .nil
  | some records =>
    refine .unnamed h none none (.some hreference) (.some (hjson false))
      (forall₂_map_map fun r hr => ?_)
    exact .ofFacts h r.name (h.stored ⟨function, records, hr, .inr (.inl hrecords)⟩) _

omit h in
private theorem aggregateOperand_agree {p p' : Expr × ResultShape.Meaning} (hp : L.Arg env p p') :
    L.Agree env Eq (aggregateOperand p.1 p.2) (aggregateOperand p'.1 p'.2) := by
  have hoperand : L.Agree env Eq
      (do
        let column ← p.2.column
        let typed ← if p.1.literalHint.isSome then p.2.typed else pure true
        return ({ sqlType := if typed then column.sqlType else none
                  isNullable := column.isNullable
                  literal := p.1.literalHint } : AggregateOperand))
      (do
        let column ← p'.2.column
        let typed ← if p.1.literalHint.isSome then p'.2.typed else pure true
        return ({ sqlType := if typed then column.sqlType else none
                  isNullable := column.isNullable
                  literal := p.1.literalHint } : AggregateOperand)) := by
    refine hp.meaning.column.bind fun c c' hc => ?_
    rw [← hc.alike.sqlType, ← hc.alike.isNullable]
    dsimp only
    split
    · exact hp.meaning.typed.bind fun typed _ htyped => htyped ▸ .pure rfl
    · exact Agree.bind (S := Eq) (.pure rfl) fun typed _ htyped => htyped ▸ .pure rfl
  rw [aggregateOperand_eq, aggregateOperand_eq, hp.head, hp.literalHint]
  cases p.1.head <;> first | exact .pure rfl | exact hoperand

private theorem aggregateCall_agree (n : Name) (windowed : Bool)
    {arg arg' : Option (Expr × ResultShape.Meaning)} (ha : Option.Rel (L.Arg env) arg arg') :
    L.Agree env L.Column (aggregateCall n windowed arg)
      (aggregateCall (n.rewrite L.rewriting) windowed arg') := by
  have hvalue (operand : AggregateOperand) (aggregate : Option String) :
      let typing := (AggregateRegistry.standard.infer? (Text.fold n.name) operand).getD {}
      L.Column { sqlType := typing.sqlType, isNullable := typing.isNullable, aggregate }
        { sqlType := typing.sqlType, isNullable := typing.isNullable, aggregate } :=
      .plain h (h.refl _) .none _ _ _
  unfold aggregateCall
  simp only [Name.rewrite, fold_name h]
  cases ha with
  | none =>
    exact Agree.bind (S := Eq) (.pure rfl) fun operand _ hoperand =>
      hoperand ▸ .pure (hvalue operand _)
  | some hp =>
    exact (aggregateOperand_agree hp).bind fun operand _ hoperand =>
      hoperand ▸ .pure (hvalue operand _)

private theorem fixedCall_agree (n : Name) (sqlType : SqlType) (isNullable : Option Bool)
    (hs : List.Forall₂ (L.Meaning env) ms ms') :
    L.Agree env L.Column (fixedCall n sqlType isNullable ms)
      (fixedCall (n.rewrite L.rewriting) sqlType isNullable ms') := by
  have hwords : leadingWords (n.rewrite L.rewriting).name = leadingWords n.name := by
    simp only [leadingWords, Name.rewrite, fold_name h]
  unfold fixedCall
  rw [hwords]
  split
  · exact .pure (.value h _ _)
  · refine (columns_agree (List.forall₂_drop _ hs)).bind fun cs cs' hcs => .pure ?_
    rw [map_eq_map hcs fun _ _ hc => hc.alike.isNullable]
    exact .value h _ _

private theorem jsonValue_agree (hm : L.Meaning env m m') :
    L.Agree env L.Column (jsonValue m) (jsonValue m') := by
  have hi := hm.arrayItem
  unfold jsonValue
  generalize m.arrayItem = item at hi
  generalize m'.arrayItem = item' at hi
  cases hi with
  | none => exact hm.column.bind fun _ _ hc => .pure (hc.asJson true)
  | some hi => exact hi.bind fun _ _ hc => .pure (.arrayOf h hc)

private theorem ofCall?_eq (n : Name) :
    BuiltinRule.ofCall? (n.rewrite L.rewriting) = BuiltinRule.ofCall? n := by
  have hname : BuiltinRule.ofName? (n.rewrite L.rewriting).name = BuiltinRule.ofName? n.name :=
    BuiltinRule.ofName?_congr (fold_name h n.name)
  rw [BuiltinRule.ofCall?, BuiltinRule.ofCall?, hname, isSome_schema_rewrite]

private theorem jsonArgument_agree {p p' : Expr × ResultShape.Meaning} (hp : L.Arg env p p') :
    L.Agree env L.Column (jsonArgument p.1 p.2) (jsonArgument p'.1 p'.2) := by
  rw [jsonArgument_eq, jsonArgument_eq, hp.head]
  cases p.1.head with
  | subquery =>
    refine hp.meaning.column.bind fun c c' hc => .pure ?_
    rw [isEmpty_eq hc.children]
    exact hc.asJson _
  | call name windowed =>
    simp only [Expr.Head.rewrite, isUserDefined_eq, ofCall?_eq h]
    split
    · exact wrappedCall_agree h name
    · exact jsonValue_agree h hp.meaning
  | _ => exact jsonValue_agree h hp.meaning

private theorem jsonQuery_agree (ha : L.allows .jsonQuery)
    {arg arg' : Option (Expr × ResultShape.Meaning)}
    (hp : Option.Rel (L.Arg env) arg arg') : L.Agree env L.Column (jsonQuery arg)
    (jsonQuery arg') := by
  unfold jsonQuery
  cases hp with
  | none =>
    exact Agree.bind (S := L.Column) (.pure ((Column.blank h).asJson true)) fun _ _ hc =>
      .pure (.jsonFragment h ha hc)
  | some hp => exact (jsonArgument_agree h hp).bind fun _ _ hc => .pure (.jsonFragment h ha hc)

private theorem passThrough_agree (argument : Nat)
    (hs : List.Forall₂ (L.Arg env) args args') (n n' : Name) (windowed : Bool) :
    L.Agree env L.Column (builtinCall n windowed args (.passThrough argument))
      (builtinCall n' windowed args' (.passThrough argument)) := by
  have hp := rel_getElem? hs argument
  simp only [builtinCall]
  generalize args[argument]? = p at hp
  generalize args'[argument]? = p' at hp
  cases hp with
  | none => exact .pure (.blank h)
  | some hp => exact hp.meaning.column.bind fun _ _ hc => .pure hc.noAggregate

private theorem nullif_agree (ha : L.allows .nullif)
    (hs : List.Forall₂ (L.Arg env) args args') (n n' : Name) (windowed : Bool) :
    L.Agree env L.Column (builtinCall n windowed args .nullif)
      (builtinCall n' windowed args' .nullif) := by
  rcases hs with _ | ⟨h₁, _ | ⟨h₂, _ | ⟨h₃, hs⟩⟩⟩
  case cons.cons.nil =>
    exact h₁.meaning.column.bind fun _ _ hc => h₂.meaning.column.bind fun _ _ _ =>
      .pure (.nullif h ha hc)
  all_goals exact .pure (.value h _ _)

private theorem builtinCall_agree (n : Name) (windowed : Bool) (rule : BuiltinRule)
    (ha : ∀ k ∈ rule.constructs, L.allows k) (hs : List.Forall₂ (L.Arg env) args args') :
    L.Agree env L.Column (builtinCall n windowed args rule)
      (builtinCall (n.rewrite L.rewriting) windowed args' rule) := by
  have hcolumns := columns_agree (meanings_of_args hs)
  cases rule with
  | aggregate => exact aggregateCall_agree h n windowed (rel_head? hs)
  | fixed sqlType isNullable => exact fixedCall_agree h n sqlType isNullable (meanings_of_args hs)
  | passThrough argument => exact passThrough_agree h argument hs _ _ windowed
  | unboundedText => exact .pure (.value h _ _)
  | jsonQuery => exact jsonQuery_agree h (ha _ (by simp [BuiltinRule.constructs])) (rel_head? hs)
  | isNull =>
    exact hcolumns.bind fun _ _ hcs =>
      .pure (.isNull h (ha _ (by simp [BuiltinRule.constructs])) hcs)
  | coalesce =>
    exact hcolumns.bind fun _ _ hcs =>
      .pure (.coalesce h (ha _ (by simp [BuiltinRule.constructs])) hcs)
  | nullif => exact nullif_agree h (ha _ (by simp [BuiltinRule.constructs])) hs _ _ windowed

private theorem call_agree (n : Name) (windowed : Bool)
    (ha : ∀ k ∈ (BuiltinRule.ofCall? n).elim [] (·.constructs), L.allows k)
    (hs : List.Forall₂ (L.Arg env) args args') :
    L.Agree env L.Column (call n windowed args) (call (n.rewrite L.rewriting) windowed args') := by
  rw [call_eq, call_eq, ofCall?_eq h]
  cases hr : BuiltinRule.ofCall? n with
  | none => exact userDefinedCall_agree h n
  | some rule =>
    rw [hr] at ha
    exact builtinCall_agree h n windowed rule ha hs

private theorem conditional_agree (hasElse : Bool) (hs : List.Forall₂ (L.Arg env) args args') :
    L.Agree env L.Column (conditional args hasElse) (conditional args' hasElse) :=
  Agree.bind (S := List.Forall₂ L.Candidate)
    (.mapM (fun _ _ hp => hp.meaning.column.bind fun _ _ hc => .pure ⟨hp.head, hc⟩) hs)
    fun _ _ hbs => .pure (.conditional h hbs hasElse)

end Calls

namespace Meaning

variable {args args' : List (Expr × ResultShape.Meaning)} {m m' l l' : ResultShape.Meaning}
  (h : L.Lawful env)

include h

private theorem ofCall (n : Name) (windowed : Bool)
    (ha : ∀ k ∈ (BuiltinRule.ofCall? n).elim [] (·.constructs), L.allows k)
    (hs : List.Forall₂ (L.Arg env) args args') :
    L.Meaning env (.ofCall n windowed args) (.ofCall (n.rewrite L.rewriting) windowed args') := by
  have hm := ofColumn (call_agree h n windowed ha hs)
  have hname (t : String) : Text.same (n.rewrite L.rewriting).name t = Text.same n.name t :=
    same_name h n.name t
  unfold ResultShape.Meaning.ofCall
  dsimp only
  rw [isSome_schema_rewrite, hname, hname]
  split
  · exact hm
  · split
    · exact hm.withConcat (List.rel_map (fun _ _ hp => hp.meaning.operand) hs)
    · split
      · exact hm.withItem (rel_map (rel_head? hs) fun _ _ hp => hp.meaning.column)
      · exact hm

private theorem ofBranches (hasElse : Bool) (hs : List.Forall₂ (L.Arg env) args args') :
    L.Meaning env (.ofBranches args hasElse) (.ofBranches args' hasElse) :=
  (ofColumn (conditional_agree h hasElse hs)).withTyped (anyTyped (meanings_of_args hs))

private theorem ofBinary (op : BinaryOp) (hl : L.Meaning env l l') (hm : L.Meaning env m m') :
    L.Meaning env (.ofBinary op l m) (.ofBinary op l' m') := by
  have hc :=
    ofColumn (hl.column.bind fun _ _ ha => hm.column.bind fun _ _ hb => .pure (.binary h op ha hb))
  have ht := hc.withTyped (anyTyped (.cons hl (.cons hm .nil)))
  unfold ResultShape.Meaning.ofBinary
  dsimp only
  split
  · exact ht.withOperands (List.rel_append hl.operands hm.operands)
  · exact ht

private theorem ofUnary (op : UnaryOp) (hm : L.Meaning env m m') :
    L.Meaning env (.ofUnary op m) (.ofUnary op m') :=
  (ofColumn (hm.column.bind fun _ _ hc => .pure (.unary h op hc))).withTyped hm.typed

private theorem ofCast {kind : CastKind} {target : DataType} (hk : L.allows (.cast kind))
    (ht : L.allows (.dataType target)) (hm : L.Meaning env m m') :
    L.Meaning env (.ofCast kind target m) (.ofCast kind target m') :=
  ofColumn (hm.column.bind fun _ _ hc => .catalog (.pure (.cast h hk ht hc)))

private theorem ofCoalesce (ha : L.allows .merge) (hs : List.Forall₂ (L.Arg env) args args') :
    L.Meaning env (.ofCoalesce (args.map (·.2))) (.ofCoalesce (args'.map (·.2))) :=
  (ofColumn ((columns_agree (meanings_of_args hs)).bind fun _ _ hcs =>
    .pure (.coalesce h ha hcs))).withTyped
    (anyTyped (meanings_of_args hs))

private theorem ofNullif (ha : L.allows .nullif) (hl : L.Meaning env l l')
    (hm : L.Meaning env m m') :
    L.Meaning env (.ofNullif l m) (.ofNullif l' m') :=
  ofColumn (hl.column.bind fun _ _ hc => hm.column.bind fun _ _ _ => .pure (.nullif h ha hc))

end Meaning

section

variable (h : L.Lawful env) {n n' : ResultShape.Nested}

include h

private theorem Arg.of_meaning {e : Expr} {m m' : ResultShape.Meaning} (hm : L.Meaning env m m') :
    L.Arg env (e, m) (e.rewrite L.rewriting, m') :=
  ⟨h.keepsForm.head_rewrite e, h.keepsForm.literalHint_rewrite e, hm⟩

/-- An expression means what the expression rewritten does, if the queries in it do. -/
theorem meaning (e : Expr)
    (hq : ∀ q ∈ e.queries, L.Agree env L.Set (n.query q) (n'.query (q.rewrite L.rewriting)))
    (hk : ∀ k ∈ e.constructs, L.allows k) : L.Meaning env (e.meaning n)
    ((e.rewrite L.rewriting).meaning n') := by
  -- the optional branch, the branches and the arguments are alike one by one
  induction e using Expr.meaning.induct
    (motive_2 := fun o =>
      (∀ q ∈ otherwiseQueries o, L.Agree env L.Set (n.query q) (n'.query (q.rewrite L.rewriting))) →
      (∀ k ∈ otherwiseConstructs o, L.allows k) →
      List.Forall₂ (L.Arg env) (Expr.otherwiseMeaning n o)
        (Expr.otherwiseMeaning n' (Expr.rewrite? L.rewriting o)))
    (motive_3 := fun bs =>
      (∀ q ∈ branchesQueries bs, L.Agree env L.Set (n.query q) (n'.query (q.rewrite L.rewriting))) →
      (∀ k ∈ branchesConstructs bs, L.allows k) →
      List.Forall₂ (L.Arg env) (Expr.branchMeanings n bs)
        (Expr.branchMeanings n' (Branch.rewriteAll L.rewriting bs)))
    (motive_4 := fun es =>
      (∀ q ∈ argsQueries es, L.Agree env L.Set (n.query q) (n'.query (q.rewrite L.rewriting))) →
      (∀ k ∈ argsConstructs es, L.allows k) →
      List.Forall₂ (L.Arg env) (Expr.meanings n es)
        (Expr.meanings n' (Expr.rewriteAll L.rewriting es)))
  all_goals simp only [Expr.queries, argsQueries, branchesQueries, otherwiseQueries,
    Expr.constructs, argsConstructs,
    branchesConstructs, otherwiseConstructs, List.mem_append, List.mem_cons, or_imp,
    forall_and, forall_eq,
    Expr.rewrite, Expr.rewriteAll, Expr.rewrite?, Branch.rewriteAll, h.meaning, Expr.meaning,
    Expr.meanings, Expr.branchMeanings, Expr.otherwiseMeaning] at *
  case case1 ref => exact .ofColumn (columnRef_agree h ref)
  case case2 value => exact .ofLiteral h value
  case case3 name => exact .ofColumn (variableColumn_agree h name)
  case case5 ih => exact .ofCast h hk.1 hk.2.1 (ih hq hk.2.2)
  case case6 ih => exact .ofCall h _ _ hk.1 (ih hq hk.2)
  case case7 ihy ihn =>
    exact .ofBranches h true
      (.cons (.of_meaning h (ihy hq.1 hk.1)) (.cons (.of_meaning h (ihn hq.2 hk.2)) .nil))
  case case8 otherwise ihb iho =>
    have hsome : (Expr.rewrite? L.rewriting otherwise).isSome = otherwise.isSome := by
      cases otherwise <;> rfl
    rw [hsome]
    exact .ofBranches h _ (List.rel_append (ihb hq.1 hk.1) (iho hq.2 hk.2))
  case case9 ihl ihr => exact .ofBinary h _ (ihl hq.1 hk.1) (ihr hq.2 hk.2)
  case case10 ih => exact .ofUnary h _ (ih hq hk)
  case case11 ih => exact .ofCoalesce h hk.1 (ih hq hk.2)
  case case12 ihl ihr => exact .ofNullif h hk.1 (ihl hq.1 hk.2.1) (ihr hq.2 hk.2.2)
  case case13 => exact .ofColumn (hq.1.bind fun _ _ hs => .pure (.ofSubquery h hs))
  case case17 ih => exact ih hq hk
  case case19 => exact .nil
  case case20 ihe ihs hq hk => exact .cons (.of_meaning h (ihe hq.1 hk.1)) (ihs hq.2 hk.2)
  case case21 => exact .nil
  case case22 ih hq hk => exact .cons (.of_meaning h (ih hq hk)) .nil
  case case23 => exact .nil
  case case24 ihe ihs hq hk => exact .cons (.of_meaning h (ihe hq.1 hk.1)) (ihs hq.2 hk.2)
  -- what is left has a type whatever it asks
  all_goals exact .ofColumn (.pure (.value h _ _))

theorem resolve (e : Expr)
    (hq : ∀ q ∈ e.queries, L.Agree env L.Set (n.query q) (n'.query (q.rewrite L.rewriting)))
    (hk : ∀ k ∈ e.constructs, L.allows k) :
    L.Agree env L.Column (e.resolve n)
      ((L.rewriting.value (e.rewrite L.rewriting)).resolve n') := by
  rw [h.resolve_value]
  exact (meaning h e hq hk).column

/-- The items of a projection are resolved alike if the queries in them are. -/
theorem itemColumns (i : Item)
    (hq : ∀ q ∈ i.queries, L.Agree env L.Set (n.query q) (n'.query (q.rewrite L.rewriting)))
    (hk : ∀ k ∈ i.constructs, L.allows k) :
    L.Agree env (List.Forall₂ L.Column) (i.columns n) ((i.rewrite L.rewriting).columns n') := by
  cases i with
  | expr value aliasName =>
    rw [Item.rewrite]
    refine (resolve h value hq hk).bind fun _ _ hc => .pure (.cons (hc.aliased ?_) .nil)
    exact rel_or (rel_of_map _ h.name _) hc.alike.aliasName
  | star qualifier =>
    rw [Item.rewrite]
    refine Agree.bind (S := Option.Rel (List.Forall₂ L.Column))
      (.fromScopes fun stack stack' hs => Scopes.expand h hs (rel_of_map _ h.name _))
        fun _ _ hcs => .pure ?_
    exact rel_getD hcs (.cons (.plain h (h.refl _) (rel_of_map _ h.name _) none none none) .nil)
  | assign name value =>
    rw [Item.rewrite]
    exact .pure .nil

theorem projectAll (is : List Item)
    (hq : ∀ i ∈ is, ∀ q ∈ i.queries,
      L.Agree env L.Set (n.query q) (n'.query (q.rewrite L.rewriting)))
    (hk : ∀ i ∈ is, ∀ k ∈ i.constructs, L.allows k) :
    L.Agree env L.Projection (Item.projectAll n is)
      (Item.projectAll n' (is.map (Item.rewrite L.rewriting))) := by
  have hcolumns : L.Agree env (List.Forall₂ (List.Forall₂ L.Column)) (is.mapM (Item.columns n))
      ((is.map (Item.rewrite L.rewriting)).mapM (Item.columns n')) :=
    .mapM_map _ fun i hi => itemColumns h i (hq i hi) (hk i hi)
  refine hcolumns.bind fun _ _ hcs => .pure ⟨List.rel_flatten hcs, ?_⟩
  simp only [List.any_map, Function.comp_def, Item.isStar_rewrite]

end

end Likeness

end ResultShape
