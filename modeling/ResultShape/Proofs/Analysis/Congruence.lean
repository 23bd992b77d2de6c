import Mathlib.Data.List.Forall2
import ResultShape.Proofs.Alike.Relation
import ResultShape.Proofs.Analysis.Forms
import ResultShape.Proofs.Catalog.Answers
/-! Congruence: what an expression does in its context is made of readings and of the queries
inside it. A relation between actions that sequencing keeps therefore holds of an expression as
soon as it holds of those queries. -/
namespace ResultShape

/-- A relation between actions that sequencing keeps, and that every reading has to itself. An
action that reads the catalog does not tell apart catalogs that answer alike. -/
structure Analysis.Congruence (R : ∀ ⦃α : Type⦄, Analysis α → Analysis α → Prop) : Prop where
  pure : ∀ {α : Type} (a : α), R (Pure.pure a) (Pure.pure a)
  bind : ∀ {α β : Type} {x y : Analysis α} {f g : α → Analysis β},
    R x y → (∀ a, R (f a) (g a)) → R (x >>= f) (y >>= g)
  catalog : ∀ {β : Type} {f g : Catalog → Analysis β}, (∀ c, R (f c) (g c)) →
    (∀ {c c'}, c.AnswersLike c' → g c = g c') → R (catalog >>= f) (catalog >>= g)
  defaultSchema : R defaultSchema defaultSchema
  bindings : R bindings bindings
  lookup : ∀ ref, R (fromScopes fun catalog => ScopeStack.lookup catalog ref)
    (fromScopes fun catalog => ScopeStack.lookup catalog ref)
  expand : ∀ qualifier, R (fromScopes fun catalog => ScopeStack.expand catalog qualifier)
    (fromScopes fun catalog => ScopeStack.expand catalog qualifier)

section
variable (R : ∀ ⦃α : Type⦄, Analysis α → Analysis α → Prop)

structure Operand.Related (o o' : Operand) : Prop where
  literal : o.literal = o'.literal
  item : Option.Rel (@R _) o.item o'.item

/-- All that the surroundings of an expression may ask of one meaning is related to
what they get of the other. -/
structure Meaning.Related (m m' : Meaning) : Prop where
  column : R m.column m'.column
  typed : R m.typed m'.typed
  operand : m.operand.Related R m'.operand
  operands : List.Forall₂ (Operand.Related R) m.operands m'.operands
  arrayItem : Option.Rel (@R _) m.arrayItem m'.arrayItem

/-- What a place that looks at the form of expressions sees of two of them: the same, or calls of
two functions without a built-in rule that are related where their rows are read. -/
inductive Expr.Head.Related : Head → Head → Prop where
  | same (head : Head) : Related head head
  | function {name name' : Name} (windowed : Bool) (hn : Analysis.isUserDefined name = true)
    (hn' : Analysis.isUserDefined name' = true)
    (h : R (Analysis.wrappedCall name) (Analysis.wrappedCall name')) :
      Related (.call name windowed) (.call name' windowed)

/-- An argument of one call stands where that of the other stands. -/
structure Meaning.RelatedArg (p p' : Expr × Meaning) : Prop where
  head : p.1.head.Related R p'.1.head
  literalHint : p.1.literalHint = p'.1.literalHint
  meaning : p.2.Related R p'.2

end

variable {R : ∀ ⦃α : Type⦄, Analysis α → Analysis α → Prop}

namespace Expr.Head.Related

variable {e e' : Expr}

theorem literal?_eq (h : e.head.Related R e'.head) : e.literal? = e'.literal? := by
  rw [Expr.literal?_eq, Expr.literal?_eq]
  generalize e.head = head at h
  generalize e'.head = head' at h
  cases h <;> rfl

theorem score_eq {head head' : Head} (h : head.Related R head') : head.score = head'.score := by
  cases h <;> rfl

end Expr.Head.Related

theorem Meaning.RelatedArg.of_related {e : Expr} {m m' : Meaning} (h : m.Related R m') :
    RelatedArg R (e, m) (e, m') :=
  ⟨.same e.head, rfl, h⟩

namespace Analysis.Congruence

variable {α β γ : Type}

theorem map (h : Congruence R) {x y : Analysis α} (hx : R x y) (f : α → β) :
    R (f <$> x) (f <$> y) := by
  have := h.bind hx fun a => h.pure (f a)
  simpa only [bind_pure_comp] using this

theorem mapM (h : Congruence R) {S : α → β → Prop} {f : α → Analysis γ} {g : β → Analysis γ}
    (hfg : ∀ a b, S a b → R (f a) (g b)) {as : List α} {bs : List β} (hs : List.Forall₂ S as bs) :
    R (as.mapM f) (bs.mapM g) := by
  induction hs with
  | nil => simpa only [List.mapM_nil] using h.pure []
  | cons hab _ ih =>
    simp only [List.mapM_cons]
    exact h.bind (hfg _ _ hab) fun c => h.bind ih fun cs => h.pure (c :: cs)

theorem forM (h : Congruence R) {as : List α} {f g : α → Analysis PUnit}
    (hfg : ∀ a ∈ as, R (f a) (g a)) :
    R (as.forM f) (as.forM g) := by
  induction as with
  | nil => exact h.pure PUnit.unit
  | cons a as ih =>
    simp only [List.forM_eq_forM, List.forM_cons] at ih ⊢
    exact h.bind (hfg a (by simp)) fun _ => ih fun b hb => hfg b (by simp [hb])

end Analysis.Congruence

namespace Meaning

open Analysis

variable {m m' : Meaning} {ms ms' : List Meaning} {args args' : List (Expr × Meaning)}

theorem Related.ofColumn (h : Congruence R) {x y : Analysis ResultColumn} (hx : R x y) :
    (ofColumn x).Related R (ofColumn y) :=
  have ho : Operand.Related R ⟨none, some x⟩ ⟨none, some y⟩ := ⟨rfl, .some hx⟩
  ⟨hx, h.bind hx fun c => h.pure c.sqlType.isSome, ho, .cons ho .nil, .none⟩

theorem Related.ofLiteral (h : Congruence R) (value : Literal) :
    (ofLiteral value).Related R (ofLiteral value) :=
  have ho :
      Operand.Related R ⟨some value, some (return value.column)⟩
        ⟨some value, some (return value.column)⟩ :=
    ⟨rfl, .some (h.pure _)⟩
  ⟨h.pure _, h.pure _, ho, .cons ho .nil, .none⟩

private theorem Related.withTyped (h : m.Related R m') {x y : Analysis Bool} (hx : R x y) :
    (m.withTyped x).Related R (m'.withTyped y) :=
  ⟨h.column, hx, h.operand, h.operands, h.arrayItem⟩

private theorem isBracket_congr (bracket : Char) {o o' : Operand} (h : o.literal = o'.literal) :
    isBracket bracket o = isBracket bracket o' := by rw [isBracket, isBracket, h]

private theorem bracketed_related {os os' : List Operand}
    (h : List.Forall₂ (Operand.Related R) os os') :
    Option.Rel (@R _) (bracketed os) (bracketed os') := by
  rcases h with _ | ⟨h₁, _ | ⟨h₂, _ | ⟨h₃, _ | ⟨h₄, h₅⟩⟩⟩⟩
  case cons.cons.cons.nil =>
    simp only [bracketed, isBracket_congr _ h₁.literal, isBracket_congr _ h₃.literal]
    split
    · exact h₂.item
    · exact .none
  all_goals exact .none

private theorem Related.withOperands (h : m.Related R m') {os os' : List Operand}
    (ho : List.Forall₂ (Operand.Related R) os os') :
    (m.withOperands os).Related R (m'.withOperands os') :=
  ⟨h.column, h.typed, h.operand, ho, bracketed_related ho⟩

private theorem Related.withConcat (h : m.Related R m') {os os' : List Operand}
    (ho : List.Forall₂ (Operand.Related R) os os') :
    (m.withConcat os).Related R (m'.withConcat os') :=
  ⟨h.column, h.typed, h.operand, h.operands, bracketed_related ho⟩

private theorem Related.withItem (h : m.Related R m') {i i' : Option (Analysis ResultColumn)}
    (hi : Option.Rel (@R _) i i') : (m.withItem i).Related R (m'.withItem i') :=
  have ho : Operand.Related R { m.operand with item := i } { m'.operand with item := i' } :=
    ⟨h.operand.literal, hi⟩
  ⟨h.column, h.typed, ho, .cons ho .nil, h.arrayItem⟩

private theorem Related.anyTyped (h : Congruence R) (hs : List.Forall₂ (Meaning.Related R) ms ms') :
    R (anyTyped ms) (anyTyped ms') := by
  induction hs with
  | nil => exact h.pure false
  | cons hm _ ih =>
    refine h.bind hm.typed fun b => ?_
    cases b
    · exact ih
    · exact h.pure true

end Meaning

namespace Analysis

variable {m m' : Meaning} {ms ms' : List Meaning} {args args' : List (Expr × Meaning)}

theorem columnRef_related (h : Congruence R) (ref : ColumnRef) :
    R (columnRef ref) (columnRef ref) := by
  unfold columnRef
  split
  · exact h.pure _
  · refine h.bind (h.lookup ref) fun found => ?_
    cases found <;> exact h.pure _

theorem variableColumn_related (h : Congruence R) (name : String) :
    R (variableColumn name) (variableColumn name) := by
  unfold variableColumn
  split
  · split <;> exact h.pure _
  · refine h.bind h.bindings fun bindings => ?_
    split <;> exact h.pure _

private theorem functionName_related (h : Congruence R) (name : Name) :
    R (functionName name) (functionName name) :=
  h.bind h.defaultSchema fun _ => h.pure _

/-- Of a user-defined function it matters only which name it has in its schema. -/
theorem userDefinedCall_related (h : Congruence R) {name name' : Name}
    (hn : R (functionName name) (functionName name')) :
    R (userDefinedCall name) (userDefinedCall name') :=
  h.bind hn fun _ => h.pure _

theorem wrappedCall_related (h : Congruence R) {name name' : Name}
    (hn : R (functionName name) (functionName name')) :
    R (wrappedCall name) (wrappedCall name') :=
  h.bind hn fun _ => h.catalog (fun _ => h.pure _) fun hc => by
    simp only [hc.functionColumns?_eq, hc.resolveColumn_eq]

private theorem aggregateOperand_related (h : Congruence R) {p p' : Expr × Meaning}
    (hp : Meaning.RelatedArg R p p') :
    R (aggregateOperand p.1 p.2) (aggregateOperand p'.1 p'.2) := by
  have hoperand (hint : Option LiteralHint) : R
      (do
        let column ← p.2.column
        let typed ← if hint.isSome then p.2.typed else pure true
        return ({ sqlType := if typed then column.sqlType else none,
                  isNullable := column.isNullable,
                  literal := hint
          : AggregateOperand }))
      (do
        let column ← p'.2.column
        let typed ← if hint.isSome then p'.2.typed else pure true
        return ({ sqlType := if typed then column.sqlType else none,
                  isNullable := column.isNullable,
                  literal := hint
          : AggregateOperand })) := by
    refine h.bind hp.meaning.column fun column => ?_
    split
    · exact h.bind hp.meaning.typed fun _ => h.pure _
    · exact h.bind (h.pure true) fun _ => h.pure _
  have hhead := hp.head
  rw [aggregateOperand_eq, aggregateOperand_eq, ← hp.literalHint]
  generalize p.1.head = head at hhead
  generalize p'.1.head = head' at hhead
  cases hhead with
  | same =>
    cases head with
    | star => exact h.pure _
    | _ => exact hoperand _
  | function => exact hoperand _

private theorem aggregateCall_related (h : Congruence R) (name : Name) (windowed : Bool)
    {arg arg' : Option (Expr × Meaning)} (ha : Option.Rel (Meaning.RelatedArg R) arg arg') :
    R (aggregateCall name windowed arg) (aggregateCall name windowed arg') := by
  unfold aggregateCall
  cases ha with
  | none => exact h.bind (h.pure _) fun _ => h.pure _
  | some hp => exact h.bind (aggregateOperand_related h hp) fun _ => h.pure _

private theorem columns_related (h : Congruence R) (hs : List.Forall₂ (Meaning.Related R) ms ms') :
    R (columns ms) (columns ms') :=
  h.mapM (fun _ _ hm => hm.column) hs

private theorem fixedCall_related (h : Congruence R) (name : Name) (sqlType : SqlType)
    (isNullable : Option Bool) (hs : List.Forall₂ (Meaning.Related R) ms ms') :
    R (fixedCall name sqlType isNullable ms) (fixedCall name sqlType isNullable ms') := by
  unfold fixedCall
  split
  · exact h.pure _
  · exact h.bind (columns_related h (List.forall₂_drop _ hs)) fun _ => h.pure _

private theorem jsonValue_related (h : Congruence R) (hm : m.Related R m') :
    R (jsonValue m) (jsonValue m') := by
  rcases m with ⟨column, typed, operand, operands, item⟩
  rcases m' with ⟨column', typed', operand', operands', item'⟩
  have hi : Option.Rel (@R _) item item' := hm.arrayItem
  cases hi with
  | none => exact h.bind hm.column fun _ => h.pure _
  | some hi => exact h.bind hi fun _ => h.pure _

private theorem jsonArgument_related (h : Congruence R) {p p' : Expr × Meaning}
    (hp : Meaning.RelatedArg R p p') :
    R (jsonArgument p.1 p.2) (jsonArgument p'.1 p'.2) := by
  have hvalue := jsonValue_related h hp.meaning
  have hhead := hp.head
  rw [jsonArgument_eq, jsonArgument_eq]
  generalize p.1.head = head at hhead
  generalize p'.1.head = head' at hhead
  cases hhead with
  | same =>
    cases head with
    | subquery => exact h.bind hp.meaning.column fun _ => h.pure _
    | call name windowed =>
      dsimp only
      split
      · exact wrappedCall_related h (functionName_related h name)
      · exact hvalue
    | _ => exact hvalue
  | function windowed hn hn' hwrapped => simpa only [hn, hn', if_true] using hwrapped

private theorem jsonQuery_related (h : Congruence R) {arg arg' : Option (Expr × Meaning)}
    (ha : Option.Rel (Meaning.RelatedArg R) arg arg') : R (jsonQuery arg) (jsonQuery arg') := by
  unfold jsonQuery
  cases ha with
  | none => exact h.bind (h.pure _) fun _ => h.pure _
  | some hp => exact h.bind (jsonArgument_related h hp) fun _ => h.pure _

private theorem related_args (hs : List.Forall₂ (Meaning.RelatedArg R) args args') :
    List.Forall₂ (Meaning.Related R) (args.map (·.2)) (args'.map (·.2)) :=
  List.rel_map (fun _ _ hp => hp.meaning) hs

private theorem passThrough_related (h : Congruence R) (argument : Nat)
    (hs : List.Forall₂ (Meaning.RelatedArg R) args args') (name : Name) (windowed : Bool) :
    R (builtinCall name windowed args (.passThrough argument))
      (builtinCall name windowed args' (.passThrough argument)) := by
  have hd := rel_getElem? hs argument
  simp only [builtinCall]
  generalize args[argument]? = p at hd ⊢
  generalize args'[argument]? = p' at hd ⊢
  cases hd with
  | none => exact h.pure _
  | some hp => exact h.bind hp.meaning.column fun _ => h.pure _

private theorem nullif_related (h : Congruence R)
    (hs : List.Forall₂ (Meaning.RelatedArg R) args args') (name : Name) (windowed : Bool) :
    R (builtinCall name windowed args .nullif) (builtinCall name windowed args' .nullif) := by
  rcases hs with _ | ⟨h₁, _ | ⟨h₂, _ | ⟨h₃, hs⟩⟩⟩
  case cons.cons.nil =>
    exact h.bind h₁.meaning.column fun _ => h.bind h₂.meaning.column fun _ => h.pure _
  all_goals exact h.pure _

private theorem builtinCall_related (h : Congruence R) (name : Name) (windowed : Bool)
    (rule : BuiltinRule) (hs : List.Forall₂ (Meaning.RelatedArg R) args args') :
    R (builtinCall name windowed args rule) (builtinCall name windowed args' rule) := by
  cases rule with
  | aggregate => exact aggregateCall_related h name windowed (rel_head? hs)
  | fixed sqlType isNullable => exact fixedCall_related h name sqlType isNullable (related_args hs)
  | passThrough argument => exact passThrough_related h argument hs name windowed
  | unboundedText => exact h.pure _
  | jsonQuery => exact jsonQuery_related h (rel_head? hs)
  | isNull => exact h.bind (columns_related h (related_args hs)) fun _ => h.pure _
  | coalesce => exact h.bind (columns_related h (related_args hs)) fun _ => h.pure _
  | nullif => exact nullif_related h hs name windowed

private theorem call_related (h : Congruence R) (name : Name) (windowed : Bool)
    (hs : List.Forall₂ (Meaning.RelatedArg R) args args') : R (call name windowed args)
    (call name windowed args') := by
  unfold call
  split
  · exact builtinCall_related h name windowed _ hs
  · exact userDefinedCall_related h (functionName_related h name)

/-- The branches of a conditional, each with its column. -/
private def candidates (args : List (Expr × Meaning)) (columns : List ResultColumn) :
    List ResultColumn.Candidate :=
  args.zipWith (fun p column => ⟨p.1, column⟩) columns

private theorem conditional_eq (args : List (Expr × Meaning)) (hasElse : Bool) :
    conditional args hasElse = do
      return .conditional (candidates args (← columns (args.map (·.2)))) hasElse := by
  have hcandidates : (args.mapM fun b => return (⟨b.1, ← b.2.column⟩ : ResultColumn.Candidate)) =
      candidates args <$> columns (args.map (·.2)) := by
    induction args with
    | nil => simp [columns, candidates]
    | cons b args ih =>
      have hcons (c : ResultColumn) (cs : List ResultColumn) :
          candidates (b :: args) (c :: cs) = ⟨b.1, c⟩ :: candidates args cs := rfl
      rw [List.mapM_cons, ih]
      simp [columns, hcons]
  unfold conditional
  rw [hcandidates]
  simp

private theorem candidates_match (hs : List.Forall₂ (Meaning.RelatedArg R) args args')
    (cs : List ResultColumn) :
    List.Forall₂ ResultColumn.Candidate.Matches (candidates args cs) (candidates args' cs) := by
  induction hs generalizing cs with
  | nil => exact .nil
  | cons hp _ ih =>
    cases cs with
    | nil => exact .nil
    | cons c cs => exact .cons ⟨hp.head.literal?_eq, hp.head.score_eq, rfl⟩ (ih cs)

private theorem conditional_related (h : Congruence R) (hasElse : Bool)
    (hs : List.Forall₂ (Meaning.RelatedArg R) args args') :
    R (conditional args hasElse) (conditional args' hasElse) := by
  rw [conditional_eq, conditional_eq]
  refine h.bind (columns_related h (related_args hs)) fun cs => ?_
  rw [ResultColumn.conditional_congr (candidates_match hs cs)]
  exact h.pure _

end Analysis

namespace Meaning

open Analysis

variable {args args' : List (Expr × Meaning)} {m m' l l' : Meaning}

theorem ofCall_related (h : Congruence R) (name : Name) (windowed : Bool)
    (hs : List.Forall₂ (RelatedArg R) args args') :
    (ofCall name windowed args).Related R (ofCall name windowed args') := by
  have hm := Related.ofColumn h (call_related h name windowed hs)
  unfold ofCall
  dsimp only
  split
  · exact hm
  · split
    · exact hm.withConcat (List.rel_map (fun _ _ hp => hp.meaning.operand) hs)
    · split
      · refine hm.withItem ?_
        cases hs with
        | nil => exact .none
        | cons hp _ => exact .some hp.meaning.column
      · exact hm

theorem ofBranches_related (h : Congruence R) (hasElse : Bool)
    (hs : List.Forall₂ (RelatedArg R) args args') :
    (ofBranches args hasElse).Related R (ofBranches args' hasElse) :=
  (Related.ofColumn h (conditional_related h hasElse hs)).withTyped
    (Related.anyTyped h (related_args hs))

theorem ofBinary_related (h : Congruence R) (op : BinaryOp) (hl : l.Related R l')
    (hm : m.Related R m') : (ofBinary op l m).Related R (ofBinary op l' m') := by
  have hc :=
    Related.ofColumn h
      (h.bind hl.column fun a => h.bind hm.column fun b => h.pure (ResultColumn.binary op a b))
  have ht := hc.withTyped (Related.anyTyped h (.cons hl (.cons hm .nil)))
  unfold ofBinary
  dsimp only
  split
  · exact ht.withOperands (List.rel_append hl.operands hm.operands)
  · exact ht

theorem ofUnary_related (h : Congruence R) (op : UnaryOp) (hm : m.Related R m') :
    (ofUnary op m).Related R (ofUnary op m') :=
  (Related.ofColumn h (h.bind hm.column fun a => h.pure (ResultColumn.unary op a))).withTyped
    hm.typed

theorem ofCast_related (h : Congruence R) (kind : CastKind) (target : DataType)
    (hm : m.Related R m') : (ofCast kind target m).Related R (ofCast kind target m') :=
  Related.ofColumn h (h.bind hm.column fun _ =>
    h.catalog (fun _ => h.pure _) fun hc => by simp only [hc.resolveType_eq])

theorem ofCoalesce_related (h : Congruence R) (hs : List.Forall₂ (RelatedArg R) args args') :
    (ofCoalesce (args.map (·.2))).Related R (ofCoalesce (args'.map (·.2))) :=
  (Related.ofColumn h (h.bind (columns_related h (related_args hs)) fun _ => h.pure _)).withTyped
    (Related.anyTyped h (related_args hs))

theorem ofNullif_related (h : Congruence R) (hl : l.Related R l') (hm : m.Related R m') :
    (ofNullif l m).Related R (ofNullif l' m') :=
  Related.ofColumn h (h.bind hl.column fun _ => h.bind hm.column fun _ => h.pure _)

end Meaning

open Analysis in
/-- The meanings of an expression under two ways to resolve queries are
related if the queries in it are. -/
theorem Expr.meaning_related (h : Congruence R) {n n' : Nested} (e : Expr)
    (hn : ∀ q ∈ e.queries, R (n.query q) (n'.query q)) :
    (e.meaning n).Related R (e.meaning n') := by
  induction e using Expr.meaning.induct
    (motive_2 := fun o => (∀ q ∈ otherwiseQueries o, R (n.query q) (n'.query q)) →
      List.Forall₂ (Meaning.RelatedArg R) (otherwiseMeaning n o) (otherwiseMeaning n' o))
    (motive_3 := fun bs => (∀ q ∈ branchesQueries bs, R (n.query q) (n'.query q)) →
      List.Forall₂ (Meaning.RelatedArg R) (branchMeanings n bs) (branchMeanings n' bs))
    (motive_4 := fun es => (∀ q ∈ argsQueries es, R (n.query q) (n'.query q)) →
      List.Forall₂ (Meaning.RelatedArg R) (meanings n es) (meanings n' es))
  all_goals simp only [Expr.queries, argsQueries, branchesQueries, otherwiseQueries,
    List.mem_append, or_imp,
    forall_and, List.mem_singleton, forall_eq, Expr.meaning, meanings, branchMeanings,
    otherwiseMeaning] at *
  case case1 ref => exact .ofColumn h (columnRef_related h ref)
  case case2 value => exact .ofLiteral h value
  case case3 name => exact .ofColumn h (variableColumn_related h name)
  case case5 ih => exact Meaning.ofCast_related h _ _ (ih hn)
  case case6 ih => exact Meaning.ofCall_related h _ _ (ih hn)
  case case7 ihy ihn =>
    exact Meaning.ofBranches_related h true
      (.cons (.of_related (ihy hn.1)) (.cons (.of_related (ihn hn.2)) .nil))
  case case8 ihb iho => exact Meaning.ofBranches_related h _ (List.rel_append (ihb hn.1) (iho hn.2))
  case case9 ihl ihr => exact Meaning.ofBinary_related h _ (ihl hn.1) (ihr hn.2)
  case case10 ih => exact Meaning.ofUnary_related h _ (ih hn)
  case case11 ih => exact Meaning.ofCoalesce_related h (ih hn)
  case case12 ihl ihr => exact Meaning.ofNullif_related h (ihl hn.1) (ihr hn.2)
  case case13 => exact .ofColumn h (h.bind hn fun _ => h.pure _)
  case case17 ih => exact ih hn
  case case19 => exact .nil
  case case20 ihe ihs hn => exact .cons (.of_related (ihe hn.1)) (ihs hn.2)
  case case21 => exact .nil
  case case22 ih hn => exact .cons (.of_related (ih hn)) .nil
  case case23 => exact .nil
  case case24 ihe ihs hn => exact .cons (.of_related (ihe hn.1)) (ihs hn.2)
  -- what is left has a type whatever it asks
  all_goals exact .ofColumn h (h.pure _)

namespace Analysis.Congruence

variable {n m : Nested}

/-- Expressions are resolved alike if the queries in them are. -/
theorem resolve (h : Congruence R) (e : Expr) (hn : ∀ q ∈ e.queries, R (n.query q) (m.query q)) :
    R (e.resolve n) (e.resolve m) :=
  (e.meaning_related h hn).column

/-- The items of a projection are resolved alike if the queries in them are. -/
theorem columns (h : Congruence R) (i : Item) (hn : ∀ q ∈ i.queries, R (n.query q) (m.query q)) :
    R (i.columns n) (i.columns m) := by
  cases i with
  | expr value aliasName => exact h.bind (h.resolve value hn) fun _ => h.pure _
  | star qualifier => exact h.bind (h.expand qualifier) fun _ => h.pure _
  | assign => exact h.pure _

theorem projectAll (h : Congruence R) (is : List Item)
    (hn : ∀ i ∈ is, ∀ q ∈ i.queries, R (n.query q) (m.query q)) :
    R (Item.projectAll n is) (Item.projectAll m is) := by
  refine h.bind
    (h.mapM (S := fun i j => i = j ∧ i ∈ is) ?_ (List.forall₂_same.2 fun i hi => ⟨rfl, hi⟩))
      fun _ => h.pure _
  rintro i _ ⟨rfl, hi⟩
  exact h.columns i (hn i hi)

end Analysis.Congruence

end ResultShape
