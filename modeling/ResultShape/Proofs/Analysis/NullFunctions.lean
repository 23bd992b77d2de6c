import ResultShape.Proofs.Alike.Same
/-! `COALESCE` and `NULLIF`: each may be written as a construct of its own or as a
call, and means the same in both ways to all that is around it, apart from an aggregate
that counts the literals in it. -/
namespace ResultShape

namespace Expr

mutual

/-- The expression with `COALESCE` and `NULLIF` written as calls wherever they are within reach of
its value: in parentheses, under operators, in branches and in arguments of `COALESCE`. Where the
literals in it are `counted`, `COALESCE` stays what it is. -/
def asCalls (counted : Bool) : Expr → Expr
  | .paren inner => .paren (inner.asCalls counted)
  | .unary op operand => .unary op (operand.asCalls counted)
  | .binary op left right => .binary op (left.asCalls counted) (right.asCalls counted)
  | .iif condition yes no => .iif condition (yes.asCalls counted) (no.asCalls counted)
  | .case operand branches otherwise =>
    .case operand (branchesAsCalls counted branches) (otherwiseAsCalls counted otherwise)
  | .coalesce args =>
    if counted then .coalesce (argsAsCalls counted args)
    else .call (.bare "COALESCE") (argsAsCalls counted args) false false
  | .nullif left right => .call (.bare "NULLIF") [left, right] false false
  | e => e

def argsAsCalls (counted : Bool) : List Expr → List Expr
  | [] => []
  | e :: es => e.asCalls counted :: argsAsCalls counted es

def branchesAsCalls (counted : Bool) : List Branch → List Branch
  | [] => []
  | ⟨condition, result⟩ :: rest =>
    ⟨condition, result.asCalls counted⟩ :: branchesAsCalls counted rest

def otherwiseAsCalls (counted : Bool) : Option Expr → Option Expr
  | none => none
  | some e => some (e.asCalls counted)

end

/-- The arguments of a call, rewritten each for itself. An aggregate counts the literals in its
first argument as soon as one of them is a number. -/
def callArgsAsCalls (name : Name) : List Expr → List Expr
  | [] => []
  | e :: es =>
    e.asCalls (BuiltinRule.ofCall? name == some .aggregate && e.literalHint.isSome) ::
      es.map (asCalls false)

/-- The expression with the parts rewritten that are not within reach of its own value. -/
def partsAsCalls : Expr → Expr
  | .cast kind operand target => .cast kind (operand.asCalls false) target
  | .call name args distinct windowed => .call name (callArgsAsCalls name args) distinct windowed
  | .iif condition yes no => .iif (condition.asCalls false) yes no
  | .case operand branches otherwise =>
    .case (operand.map (asCalls false))
      (branches.map fun b => ⟨b.condition.asCalls false, b.result⟩) otherwise
  | .nullif left right => .nullif (left.asCalls false) (right.asCalls false)
  | .isNull operand negated => .isNull (operand.asCalls false) negated
  | .inList operand items negated =>
    .inList (operand.asCalls false) (items.map (asCalls false)) negated
  | e => e

theorem argsAsCalls_eq_map (counted : Bool) (es : List Expr) :
    argsAsCalls counted es = es.map (asCalls counted) := by
  induction es with
  | nil => rfl
  | cons e es ih => rw [argsAsCalls, ih, List.map_cons]

theorem results_asCalls (counted : Bool) (branches : List Branch) (otherwise : Option Expr) :
    results (branchesAsCalls counted branches) (otherwiseAsCalls counted otherwise) =
      (results branches otherwise).map (asCalls counted) := by
  have hbranches : (branchesAsCalls counted branches).map (·.result) =
      (branches.map (·.result)).map (asCalls counted) := by
    induction branches with
    | nil => rfl
    | cons b bs ih =>
      obtain ⟨condition, result⟩ := b
      rw [branchesAsCalls, List.map_cons, ih, List.map_cons, List.map_cons]
  rw [results, hbranches, results, List.map_append]
  cases otherwise <;> rfl

/-- The form of an expression to a place that looks into it: a call of a built-in
function has none in particular. -/
def Head.form : Head → Head
  | .call name windowed => if Analysis.isUserDefined name then .call name windowed else .other
  | h => h

theorem form_asCalls (counted : Bool) (e : Expr) : (e.asCalls counted).head.form = e.head.form := by
  induction e using unnested.induct with
  | case1 inner ih => rw [asCalls, head_paren, head_paren, ih]
  | case2 e he =>
    cases e
    case paren => exact absurd rfl (he _)
    case coalesce => cases counted <;> rfl
    all_goals rfl

theorem literal?_eq_form (e : Expr) : e.literal? = match e.head.form with
    | .literal value => some value
    | _ => none := by
  rw [literal?_eq]
  cases e.head with
  | call name windowed => by_cases h : Analysis.isUserDefined name <;> simp [Head.form, h]
  | _ => rfl

theorem score_eq_form (e : Expr) : e.head.score = e.head.form.score := by
  cases e.head with
  | call name windowed =>
    by_cases h : Analysis.isUserDefined name <;> simp [Head.form, Head.score, h]
  | _ => rfl

end Expr

namespace ResultColumn

variable {g : Expr → Expr} (hg : ∀ e, (g e).head.form = e.head.form)

include hg

/-- A conditional looks at nothing of its branches but their forms and their columns. -/
theorem conditional_map (bs : List Candidate) (hasElse : Bool) :
    conditional (bs.map fun b => ⟨g b.expr, b.column⟩) hasElse = conditional bs hasElse := by
  have hmatches (b : Candidate) : Candidate.Matches ⟨g b.expr, b.column⟩ b := by
    refine ⟨?_, ?_, rfl⟩
    · rw [Expr.literal?_eq_form, Expr.literal?_eq_form, hg]
    · rw [Expr.score_eq_form, Expr.score_eq_form, hg]
  exact conditional_congr
    (List.forall₂_map_left_iff.2 (List.forall₂_same.2 fun b _ => hmatches b)) hasElse

end ResultColumn

theorem Analysis.columns_eq {ms ms' : List Meaning} (h : ms.map (·.column) = ms'.map (·.column)) :
    columns ms = columns ms' := by
  have hid (ms : List Meaning) : columns ms = (ms.map (·.column)).mapM id := by
    rw [List.mapM_map]
    rfl
  rw [hid, hid, h]

section

variable {α : Type} {as : List α} {f g : α → Meaning}

theorem Analysis.columns_map (h : ∀ a ∈ as, (f a).column = (g a).column) :
    columns (as.map f) = columns (as.map g) := by
  refine columns_eq ?_
  rw [List.map_map, List.map_map]
  exact List.map_congr_left h

theorem Meaning.anyTyped_map (h : ∀ a ∈ as, (f a).typed = (g a).typed) :
    anyTyped (as.map f) = anyTyped (as.map g) := by
  induction as with
  | nil => rfl
  | cons a as ih =>
    rw [List.forall_mem_cons] at h
    rw [List.map_cons, List.map_cons, anyTyped, anyTyped, h.1, ih h.2]

end

/-- One meaning may stand for another: whatever is asked of it, the answer is the same. Whether its
type is known beyond literals is asked only where its literals are `counted`. -/
structure Meaning.Stands (counted : Bool) (m m' : Meaning) : Prop where
  column : m'.column = m.column
  typed : counted = true → m'.typed = m.typed
  operand : m'.operand = m.operand
  operands : m'.operands = m.operands
  arrayItem : m'.arrayItem = m.arrayItem

namespace Meaning.Stands

variable {counted : Bool} {m m' l l' : Meaning} {n : Nested}

theorem refl (m : Meaning) : Stands counted m m := ⟨rfl, fun _ => rfl, rfl, rfl, rfl⟩

theorem ofColumn {x x' : Analysis ResultColumn} {t t' : Analysis Bool} (hx : x' = x)
    (ht : counted = true → t' = t) :
    Stands counted ((Meaning.ofColumn x).withTyped t) ((Meaning.ofColumn x').withTyped t') := by
  subst hx
  exact ⟨rfl, ht, rfl, rfl, rfl⟩

theorem ofUnary (op : UnaryOp) (hm : Stands counted m m') :
    Stands counted (Meaning.ofUnary op m) (Meaning.ofUnary op m') :=
  ofColumn (by rw [hm.column]) hm.typed

theorem ofBinary (op : BinaryOp) (hl : Stands counted l l') (hm : Stands counted m m') :
    Stands counted (Meaning.ofBinary op l m) (Meaning.ofBinary op l' m') := by
  have hc :
      Stands counted
        ((Meaning.ofColumn do return .binary op (← l.column) (← m.column)).withTyped
          (anyTyped [l, m]))
      ((Meaning.ofColumn do return .binary op (← l'.column) (← m'.column)).withTyped
        (anyTyped [l', m'])) :=
    ofColumn (by rw [hl.column, hm.column]) fun h => by simp only [anyTyped, hl.typed h, hm.typed h]
  unfold Meaning.ofBinary
  dsimp only
  split
  · refine ⟨hc.column, hc.typed, hc.operand, ?_, ?_⟩
    · exact congrArg₂ (· ++ ·) hl.operands hm.operands
    · exact congrArg bracketed (congrArg₂ (· ++ ·) hl.operands hm.operands)
  · exact hc

variable {es : List Expr}
  (hes : ∀ e ∈ es, Stands counted (e.meaning n) ((e.asCalls counted).meaning n))

include hes

/-- A conditional over expressions, and over the same ones written as calls. -/
theorem ofBranches (hasElse : Bool) :
    Stands counted (Meaning.ofBranches (es.map fun e => (e, e.meaning n)) hasElse)
      (Meaning.ofBranches ((es.map (Expr.asCalls counted)).map fun e => (e, e.meaning n))
        hasElse) := by
  let candidate (p : Expr × Meaning) : Analysis ResultColumn.Candidate := return ⟨p.1, ← p.2.column⟩
  have hcandidates :
      ((es.map (Expr.asCalls counted)).map fun e => (e, e.meaning n)).mapM candidate =
      List.map (fun b => ⟨b.expr.asCalls counted, b.column⟩) <$>
        (es.map fun e => (e, e.meaning n)).mapM candidate := by
    induction es with
    | nil => simp
    | cons e es ih =>
      rw [List.forall_mem_cons] at hes
      simp only [List.map_cons, List.mapM_cons, ih hes.2, candidate, hes.1.column, map_bind,
        bind_assoc, pure_bind, map_pure, bind_map_left]
  refine ofColumn ?_ fun h => ?_
  · unfold Analysis.conditional
    change ((List.map _ (List.map _ es)).mapM candidate >>= _) =
      (List.map _ es).mapM candidate >>= _
    rw [hcandidates, bind_map_left]
    refine bind_congr fun bs => ?_
    rw [ResultColumn.conditional_map (Expr.form_asCalls counted)]
  · rw [List.map_map, List.map_map, List.map_map]
    exact anyTyped_map fun e he => (hes e he).typed h

/-- `COALESCE` over expressions, and over the same ones written as calls. -/
theorem ofCoalesce :
    Stands counted ((Expr.coalesce es).meaning n)
      (((Expr.coalesce es).asCalls counted).meaning n) := by
  have hcolumns : Analysis.columns ((es.map (Expr.asCalls counted)).map fun e => e.meaning n) =
      Analysis.columns (es.map fun e => e.meaning n) := by
    rw [List.map_map]
    exact Analysis.columns_map fun e he => (hes e he).column
  have hcoalesce (es : List Expr) : (Expr.coalesce es).meaning n =
      (Meaning.ofColumn do
        return .coalesce (← Analysis.columns (es.map fun e => e.meaning n))).withTyped
        (anyTyped (es.map fun e => e.meaning n)) := by
    rw [Expr.meaning, Expr.meanings_eq_map, List.map_map]
    rfl
  have hcall (es : List Expr) : (Expr.call (.bare "COALESCE") es false false).meaning n =
      Meaning.ofColumn do return .coalesce (← Analysis.columns (es.map fun e => e.meaning n)) := by
    rw [Expr.meaning, Expr.meanings_eq_map]
    change Meaning.ofColumn
      (do return .coalesce (← Analysis.columns (List.map _ (List.map _ es)))) = _
    rw [List.map_map]
    rfl
  rw [Expr.asCalls, Expr.argsAsCalls_eq_map]
  cases counted with
  | true =>
    rw [if_pos rfl, hcoalesce, hcoalesce]
    refine ofColumn (by rw [hcolumns]) fun h => ?_
    rw [List.map_map]
    exact anyTyped_map fun e he => (hes e he).typed h
  | false =>
    rw [if_neg Bool.false_ne_true, hcoalesce, hcall]
    exact ofColumn (by rw [hcolumns]) fun h => absurd h Bool.false_ne_true

end Meaning.Stands

namespace Expr

/-- An expression written with calls stands for the expression. -/
theorem stands_asCalls (counted : Bool) (n : Nested) (e : Expr) :
    (e.meaning n).Stands counted ((e.asCalls counted).meaning n) := by
  induction e using parts_induction with
  | step e ih =>
    cases e with
    | iif condition yes no =>
      rw [asCalls, meaning, meaning]
      exact .ofBranches ih true
    | case operand branches otherwise =>
      have hsome : (otherwiseAsCalls counted otherwise).isSome = otherwise.isSome := by
        cases otherwise <;> rfl
      rw [asCalls, meaning, meaning, branchMeanings_append_otherwiseMeaning,
        branchMeanings_append_otherwiseMeaning, results_asCalls, hsome]
      exact .ofBranches ih _
    | binary op left right =>
      rw [asCalls, meaning, meaning]
      exact .ofBinary op (ih left List.mem_cons_self)
        (ih right (List.mem_cons_of_mem _ (List.mem_singleton_self right)))
    | unary op operand =>
      rw [asCalls, meaning, meaning]
      exact .ofUnary op (ih operand (List.mem_singleton_self operand))
    | coalesce args => exact .ofCoalesce ih
    | paren inner =>
      rw [asCalls, meaning, meaning]
      exact ih inner (List.mem_singleton_self inner)
    | _ => exact .refl _

end Expr

section Hints

theorem LiteralHint.merge_eq_none {a b : Option LiteralHint} :
    merge a b = none ↔ a = none ∧ b = none := by
  rcases a with _ | (_ | _) <;> rcases b with _ | (_ | _) <;> simp [merge]

namespace Expr

private theorem literalHint_asCalls_true (e : Expr) :
    (e.asCalls true).literalHint = e.literalHint := by
  induction e using Expr.meaning.induct
    (motive_2 := fun o => otherwiseHint (otherwiseAsCalls true o) = otherwiseHint o)
    (motive_3 := fun bs => branchesHint (branchesAsCalls true bs) = branchesHint bs)
    (motive_4 := fun es => argsHint (argsAsCalls true es) = argsHint es) <;>
  simp_all only [asCalls, argsAsCalls, branchesAsCalls, otherwiseAsCalls, literalHint,
    argsHint, branchesHint, otherwiseHint, if_true]

private theorem literalHint_asCalls_false (e : Expr) (h : e.literalHint = none) :
    (e.asCalls false).literalHint = none := by
  induction e using Expr.meaning.induct
    (motive_2 := fun o => otherwiseHint o = none → otherwiseHint (otherwiseAsCalls false o) = none)
    (motive_3 := fun bs => branchesHint bs = none → branchesHint (branchesAsCalls false bs) = none)
    (motive_4 := fun es => argsHint es = none → argsHint (argsAsCalls false es) = none) <;>
  simp_all [asCalls, argsAsCalls, branchesAsCalls, otherwiseAsCalls, literalHint, argsHint,
    branchesHint, otherwiseHint, LiteralHint.merge_eq_none]

/-- An expression in which the literals count, if a number is among them, gives the same hint. -/
theorem literalHint_asCalls_isSome (e : Expr) :
    (e.asCalls e.literalHint.isSome).literalHint = e.literalHint := by
  cases h : e.literalHint with
  | none => exact e.literalHint_asCalls_false h
  | some hint => exact (e.literalHint_asCalls_true).trans h

end Expr

end Hints

namespace Analysis

variable {n : Nested}

private theorem aggregateOperand_eq_form (e : Expr) (m : Meaning) :
    aggregateOperand e m = match e.head.form with
    | .star => return {}
    | _ => do
      let column ← m.column
      let typed ← if e.literalHint.isSome then m.typed else pure true
      return { sqlType := if typed then column.sqlType else none
               isNullable := column.isNullable
               literal := e.literalHint } := by
  rw [aggregateOperand_eq]
  cases e.head with
  | call name windowed => by_cases h : isUserDefined name <;> simp [Expr.Head.form, h]
  | _ => rfl

private theorem jsonArgument_eq_form (e : Expr) (m : Meaning) :
    jsonArgument e m = match e.head.form with
    | .subquery => do
      let column ← m.column
      return column.asJson column.children.isEmpty
    | .call name _ => wrappedCall name
    | _ => jsonValue m := by
  rw [jsonArgument_eq]
  cases e.head with
  | call name windowed => by_cases h : isUserDefined name <;> simp [Expr.Head.form, h]
  | _ => rfl

private theorem aggregateOperand_asCalls (e : Expr) :
    aggregateOperand (e.asCalls e.literalHint.isSome) ((e.asCalls e.literalHint.isSome).meaning n) =
      aggregateOperand e (e.meaning n) := by
  have hs := e.stands_asCalls e.literalHint.isSome n
  rw [aggregateOperand_eq_form, aggregateOperand_eq_form, Expr.form_asCalls, hs.column,
    e.literalHint_asCalls_isSome]
  by_cases h : e.literalHint.isSome
  · simp only [if_pos h, hs.typed h]
  · simp only [if_neg h]

private theorem jsonArgument_asCalls (counted : Bool) (e : Expr) :
    jsonArgument (e.asCalls counted) ((e.asCalls counted).meaning n) =
      jsonArgument e (e.meaning n) := by
  have hs := e.stands_asCalls counted n
  have hvalue : jsonValue ((e.asCalls counted).meaning n) = jsonValue (e.meaning n) := by
    rw [jsonValue, jsonValue, hs.arrayItem, hs.column]
  rw [jsonArgument_eq_form, jsonArgument_eq_form, Expr.form_asCalls, hs.column, hvalue]

/-- A built-in function that is no aggregate and not `JSON_QUERY` looks at the
columns of its arguments alone. -/
private theorem builtinCall_eq (name : Name) (windowed : Bool) {rule : BuiltinRule}
    (ha : rule ≠ .aggregate) (hj : rule ≠ .jsonQuery) {args args' : List (Expr × Meaning)}
    (h : args.map (·.2.column) = args'.map (·.2.column)) :
    builtinCall name windowed args rule = builtinCall name windowed args' rule := by
  have hcolumns : (args.map (·.2)).map (·.column) = (args'.map (·.2)).map (·.column) := by
    rw [List.map_map, List.map_map]
    exact h
  cases rule with
  | aggregate => exact absurd rfl ha
  | jsonQuery => exact absurd rfl hj
  | unboundedText => rfl
  | isNull | coalesce => simp only [builtinCall, columns_eq hcolumns]
  | fixed sqlType isNullable =>
    have hdrop (k : Nat) : columns ((args.map (·.2)).drop k) = columns ((args'.map (·.2)).drop k) :=
      columns_eq (by rw [List.map_drop, hcolumns, List.map_drop])
    simp only [builtinCall, fixedCall, hdrop]
  | passThrough argument =>
    have hargument := congrArg (·[argument]?) h
    simp only [List.getElem?_map] at hargument
    simp only [builtinCall]
    cases hp : args[argument]? <;> cases hp' : args'[argument]? <;> simp_all
  | nullif =>
    rcases args with _ | ⟨a, _ | ⟨b, _ | ⟨c, rest⟩⟩⟩ <;>
      rcases args' with _ | ⟨a', _ | ⟨b', _ | ⟨c', rest'⟩⟩⟩ <;>
      simp_all [builtinCall]

private theorem map_callArgsAsCalls {β : Type} {f : Expr → β}
    (hf : ∀ counted e, f (e.asCalls counted) = f e)
    (name : Name) (es : List Expr) : (Expr.callArgsAsCalls name es).map f = es.map f := by
  cases es with
  | nil => rfl
  | cons e es =>
    rw [Expr.callArgsAsCalls, List.map_cons, List.map_cons, hf, List.map_map]
    exact congrArg _ (List.map_congr_left fun e _ => hf false e)

private theorem call_asCalls (name : Name) (windowed : Bool) (es : List Expr) :
    call name windowed ((Expr.callArgsAsCalls name es).map fun e => (e, e.meaning n)) =
      call name windowed (es.map fun e => (e, e.meaning n)) := by
  rw [call_eq, call_eq]
  cases hr : BuiltinRule.ofCall? name with
  | none => rfl
  | some rule =>
    by_cases ha : rule = .aggregate
    · subst ha
      cases es with
      | nil => rfl
      | cons e es =>
        simp only [Option.elim, builtinCall, aggregateCall, Expr.callArgsAsCalls, hr, List.map_cons,
          List.head?_cons, beq_self_eq_true, Bool.true_and, aggregateOperand_asCalls]
    · by_cases hj : rule = .jsonQuery
      · subst hj
        cases es with
        | nil => rfl
        | cons e es =>
          simp only [Option.elim, builtinCall, jsonQuery, Expr.callArgsAsCalls, List.map_cons,
            List.head?_cons, jsonArgument_asCalls]
      · refine builtinCall_eq name windowed ha hj ?_
        rw [List.map_map, List.map_map]
        exact map_callArgsAsCalls (fun counted e => (e.stands_asCalls counted n).column) name es

end Analysis

namespace Expr

theorem meaning_partsAsCalls (e : Expr) (n : Nested) : e.partsAsCalls.meaning n = e.meaning n := by
  have hcolumn (e : Expr) := (e.stands_asCalls false n).column
  cases e with
  | cast kind operand target => simp only [partsAsCalls, meaning, Meaning.ofCast, hcolumn]
  | nullif left right => simp only [partsAsCalls, meaning, Meaning.ofNullif, hcolumn]
  | call name args distinct windowed =>
    have hoperands : (callArgsAsCalls name args).map (fun e => (e.meaning n).operand) =
        args.map fun e => (e.meaning n).operand :=
      Analysis.map_callArgsAsCalls (fun counted e => (e.stands_asCalls counted n).operand) name args
    have hcolumns : (callArgsAsCalls name args).map (fun e => (e.meaning n).column) =
        args.map fun e => (e.meaning n).column :=
      Analysis.map_callArgsAsCalls (fun counted e => (e.stands_asCalls counted n).column) name args
    have hhead := congrArg List.head? hcolumns
    simp only [List.head?_map] at hhead
    simp only [partsAsCalls, meaning, meanings_eq_map, Meaning.ofCall,
      Analysis.call_asCalls, List.map_map, List.head?_map, Option.map_map, Function.comp_def,
      hoperands, hhead]
  | case operand branches otherwise =>
    simp only [partsAsCalls, meaning, branchMeanings_append_otherwiseMeaning, results, List.map_map,
      Function.comp_def]
  | _ => rfl

theorem literalHint_partsAsCalls (e : Expr) : e.partsAsCalls.literalHint = e.literalHint := by
  cases e with
  | case operand branches otherwise =>
    have hbranches (bs : List Branch) :
        branchesHint (bs.map fun b => ⟨b.condition.asCalls false, b.result⟩) = branchesHint bs := by
      induction bs with
      | nil => rfl
      | cons b bs ih =>
        obtain ⟨condition, result⟩ := b
        rw [List.map_cons, branchesHint, ih, branchesHint]
    rw [partsAsCalls, literalHint, hbranches, literalHint]
  | _ => rfl

theorem head_partsAsCalls (e : Expr) : e.partsAsCalls.head = e.head := by cases e <;> rfl

theorem isAggregate_asCalls (counted : Bool) (e : Expr) :
    (e.asCalls counted).isAggregate = e.isAggregate := by
  rw [isAggregate_eq, isAggregate_eq]
  induction e using unnested.induct with
  | case1 inner ih => rw [asCalls, head_paren, head_paren, ih]
  | case2 e he =>
    cases e
    case paren => exact absurd rfl (he _)
    case coalesce => cases counted <;> rfl
    all_goals rfl

end Expr

end ResultShape
