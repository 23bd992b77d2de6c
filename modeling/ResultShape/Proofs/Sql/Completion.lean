import ResultShape.Proofs.Sql.Constructs
import ResultShape.Proofs.Sql.Rewriting
/-! Completion: the same query with a schema written in front of the names that have none, of tables
where no CTE of the name is in sight and of functions that are not built in. -/
namespace ResultShape

/-- How names without a schema are completed. -/
structure Completion where
  schema : String
  /-- The folded names of the CTEs that may be in sight where the definition of one is computed. -/
  defined : List String

/-- The folded names that a `WITH` clause brings in sight. -/
def Cte.keys (ctes : List Cte) : List String := ctes.map fun cte => Text.fold cte.name

namespace Completion

variable (κ : Completion)

/-- A function with a built-in rule, and `STRING_SPLIT`, stay as they are. -/
def function (n : Name) : Name :=
  if (BuiltinRule.ofName? n.name).isSome || Text.same n.name "string_split" then n
  else n.inSchema κ.schema

/-- A local table stays as it is, and so does a name of one part among those in sight. -/
def table (sight : List String) (n : Name) : Name :=
  if n.isLocal || (n.schema.isNone && n.catalog.isNone && sight.contains (Text.fold n.name)) then n
  else n.inSchema κ.schema

end Completion

mutual

/-- The expression with the functions and tables in it completed, where
names of CTEs are in sight. -/
def Expr.complete (κ : Completion) : Expr → List String → Expr
  | .column ref, _ => .column ref
  | .literal value, _ => .literal value
  | .var name, _ => .var name
  | .star, _ => .star
  | .cast kind operand target, sight => .cast kind (operand.complete κ sight) target
  | .call name args distinct windowed, sight =>
    .call (κ.function name) (Expr.completeAll κ args sight) distinct windowed
  | .iif condition yes no, sight =>
    .iif (condition.complete κ sight) (yes.complete κ sight) (no.complete κ sight)
  | .case operand branches otherwise, sight =>
    .case (Expr.complete? κ operand sight) (Branch.completeAll κ branches sight)
      (Expr.complete? κ otherwise sight)
  | .binary op left right, sight => .binary op (left.complete κ sight) (right.complete κ sight)
  | .unary op operand, sight => .unary op (operand.complete κ sight)
  | .coalesce args, sight => .coalesce (Expr.completeAll κ args sight)
  | .nullif left right, sight => .nullif (left.complete κ sight) (right.complete κ sight)
  | .subquery query, sight => .subquery (query.complete κ sight)
  | .exists query, sight => .exists (query.complete κ sight)
  | .isNull operand negated, sight => .isNull (operand.complete κ sight) negated
  | .inList operand items negated, sight =>
    .inList (operand.complete κ sight) (Expr.completeAll κ items sight) negated
  | .paren inner, sight => .paren (inner.complete κ sight)
  | .other text, _ => .other text

def Expr.complete? (κ : Completion) : Option Expr → List String → Option Expr
  | none, _ => none
  | some e, sight => some (e.complete κ sight)

def Expr.completeAll (κ : Completion) : List Expr → List String → List Expr
  | [], _ => []
  | e :: es, sight => e.complete κ sight :: Expr.completeAll κ es sight

def Branch.completeAll (κ : Completion) : List Branch → List String → List Branch
  | [], _ => []
  | ⟨condition, result⟩ :: rest, sight =>
    ⟨condition.complete κ sight, result.complete κ sight⟩ :: Branch.completeAll κ rest sight

/-- The names of its `WITH` clause are in sight in the query. -/
def Query.complete (κ : Completion) : Query → List String → Query
  | ⟨body, ctes, orderBy, forClause, sourceText⟩, sight =>
    ⟨body.complete κ (Cte.keys ctes ++ sight), Cte.completeAll κ ctes,
      OrderKey.completeAll κ orderBy (Cte.keys ctes ++ sight), forClause, sourceText⟩

/-- A definition is computed in sight of the `WITH` clauses around the place that refers to it. -/
def Cte.completeAll (κ : Completion) : List Cte → List Cte
  | [] => []
  | ⟨name, columns, query⟩ :: rest =>
    ⟨name, columns, query.complete κ κ.defined⟩ :: Cte.completeAll κ rest

def Body.complete (κ : Completion) : Body → List String → Body
  | .select block, sight => .select (block.complete κ sight)
  | .setOp op left right, sight => .setOp op (left.complete κ sight) (right.complete κ sight)
  | .nested query, sight => .nested (query.complete κ sight)

def Select.complete (κ : Completion) : Select → List String → Select
  | ⟨distinct, top, items, into, sources, condition, groupBy, having⟩, sight =>
    ⟨distinct, Top.complete? κ top sight, Item.completeAll κ items sight, into,
      Source.completeAll κ sources sight,
      Expr.complete? κ condition sight, Expr.completeAll κ groupBy sight,
      Expr.complete? κ having sight⟩

def Top.complete? (κ : Completion) : Option Top → List String → Option Top
  | none, _ => none
  | some ⟨quantity, percent, withTies⟩, sight => some ⟨quantity.complete κ sight, percent, withTies⟩

def Item.completeAll (κ : Completion) : List Item → List String → List Item
  | [], _ => []
  | i :: is, sight => i.complete κ sight :: Item.completeAll κ is sight

def Item.complete (κ : Completion) : Item → List String → Item
  | .expr value aliasName, sight => .expr (value.complete κ sight) aliasName
  | .star qualifier, _ => .star qualifier
  | .assign name value, sight => .assign name (value.complete κ sight)

def OrderKey.completeAll (κ : Completion) : List OrderKey → List String → List OrderKey
  | [], _ => []
  | ⟨value, descending⟩ :: rest, sight =>
    ⟨value.complete κ sight, descending⟩ :: OrderKey.completeAll κ rest sight

def Source.completeAll (κ : Completion) : List Source → List String → List Source
  | [], _ => []
  | s :: ss, sight => s.complete κ sight :: Source.completeAll κ ss sight

def Source.complete (κ : Completion) : Source → List String → Source
  | .named name aliasName, sight => .named (κ.table sight name) aliasName
  | .var name aliasName, _ => .var name aliasName
  | .derived query aliasName columns, sight => .derived (query.complete κ sight) aliasName columns
  | .function name args aliasName, sight =>
    .function (κ.function name) (Expr.completeAll κ args sight) aliasName
  | .openJson value path columns aliasName, sight =>
    .openJson (value.complete κ sight) path columns aliasName
  | .join kind left right on, sight =>
    .join kind (left.complete κ sight) (right.complete κ sight) (Expr.complete? κ on sight)

end

/-- A definition by itself, with what may be in sight of any definition. -/
def Cte.complete (κ : Completion) (cte : Cte) : Cte :=
  { cte with query := cte.query.complete κ κ.defined }

def Expr.Head.complete (κ : Completion) : Head → Head
  | .call name windowed => .call (κ.function name) windowed
  | h => h

variable {κ : Completion} {sight : List String}

theorem Completion.function_eq_self {n : Name} {rule : BuiltinRule}
    (h : BuiltinRule.ofCall? n = some rule) :
    κ.function n = n := by
  unfold BuiltinRule.ofCall? at h
  split at h
  · cases h
  · rw [function, h, Option.isSome_some, Bool.true_or, if_pos rfl]

/-- A function that is not built in does not become so. -/
theorem Completion.ofCall?_function (n : Name) :
    BuiltinRule.ofCall? (κ.function n) = BuiltinRule.ofCall? n := by
  unfold function
  split
  · rfl
  · rename_i h
    rw [Bool.or_eq_true, not_or, Bool.not_eq_true, Option.isSome_eq_false_iff,
      Option.isNone_iff_eq_none] at h
    simp [BuiltinRule.ofCall?, Name.inSchema, h.1]

/-- A call without a built-in rule is none of an aggregate. -/
theorem BuiltinRule.isAggregate_of_ofCall?_eq_none {n : Name} (h : ofCall? n = none) :
    (n.schema.isNone && AggregateRegistry.standard.isAggregate n.name) = false := by
  unfold ofCall? at h
  split at h
  · rename_i hs
    rw [Option.isNone_eq_false_iff.2 hs, Bool.false_and]
  · unfold ofName? at h
    split at h
    · cases h
    · rename_i ha
      rw [Bool.eq_false_iff.2 ha, Bool.and_false]

namespace Expr

theorem head_complete (e : Expr) : (e.complete κ sight).head = e.head.complete κ := by
  induction e using unnested.induct with
  | case1 inner ih => rw [complete, head_paren, head_paren, ih]
  | case2 e he => cases e <;> first | exact absurd rfl (he _) | (rw [complete]; rfl)

theorem literal?_complete (e : Expr) : (e.complete κ sight).literal? = e.literal? := by
  rw [literal?_eq, literal?_eq, head_complete]
  cases e.head <;> rfl

theorem literalHint_complete (e : Expr) : (e.complete κ sight).literalHint = e.literalHint := by
  induction e using Expr.meaning.induct
    (motive_2 := fun o => otherwiseHint (complete? κ o sight) = otherwiseHint o)
    (motive_3 := fun bs => branchesHint (Branch.completeAll κ bs sight) = branchesHint bs)
    (motive_4 := fun es => argsHint (completeAll κ es sight) = argsHint es) <;>
  simp_all only [complete, literalHint, complete?, completeAll, Branch.completeAll, argsHint,
    otherwiseHint, branchesHint]

/-- A call of an aggregate has no schema and stays as it is; no other call becomes one. -/
theorem isAggregate_complete (e : Expr) : (e.complete κ sight).isAggregate = e.isAggregate := by
  rw [isAggregate_eq, isAggregate_eq, head_complete]
  cases e.head with
  | call name windowed =>
    cases hrule : BuiltinRule.ofCall? name with
    | some rule => rw [Head.complete, Completion.function_eq_self hrule]
    | none =>
      have hrule' := (Completion.ofCall?_function (κ := κ) name).trans hrule
      simp only [Head.complete, Bool.and_assoc, BuiltinRule.isAggregate_of_ofCall?_eq_none hrule,
        BuiltinRule.isAggregate_of_ofCall?_eq_none hrule']
  | _ => rfl

theorem isSome_complete? (o : Option Expr) : (complete? κ o sight).isSome = o.isSome := by
  cases o <;> simp [complete?]

theorem isEmpty_completeAll (es : List Expr) : (completeAll κ es sight).isEmpty = es.isEmpty := by
  cases es <;> simp [completeAll]

end Expr

theorem Cte.completeAll_eq_map (ctes : List Cte) : completeAll κ ctes = ctes.map (complete κ) := by
  induction ctes with
  | nil => simp [completeAll]
  | cons cte ctes ih =>
    cases cte
    simp [completeAll, ih, complete]

theorem Item.completeAll_eq_map (is : List Item) :
    completeAll κ is sight = is.map (·.complete κ sight) := by
  induction is with
  | nil => simp [completeAll]
  | cons i is ih => simp [completeAll, ih]

theorem Source.completeAll_eq_map (ss : List Source) :
    completeAll κ ss sight = ss.map (·.complete κ sight) := by
  induction ss with
  | nil => simp [completeAll]
  | cons s ss ih => simp [completeAll, ih]

theorem Item.isVisible_complete (i : Item) : (i.complete κ sight).isVisible = i.isVisible := by
  cases i <;> simp [complete, isVisible]

theorem Item.isStar_complete (i : Item) : (i.complete κ sight).isStar = i.isStar := by
  cases i <;> simp [complete, isStar]

theorem Item.isAggregate_complete (i : Item) :
    (i.complete κ sight).isAggregate = i.isAggregate := by
  cases i <;> simp [complete, isAggregate, Expr.isAggregate_complete]

theorem Body.isSetOp_complete (b : Body) : (b.complete κ sight).isSetOp = b.isSetOp := by
  cases b <;> simp [complete, isSetOp]

theorem Body.leftmost_complete (b : Body) :
    (b.complete κ sight).leftmost = b.leftmost.complete κ sight := by
  induction b using Body.leftmost.induct with
  | case1 op left right ih => rw [complete, leftmost, leftmost, ih]
  | case2 b hb => cases b <;> first | exact absurd rfl (hb _ _ _) | simp [complete, leftmost]

namespace Select

variable (s : Select)

theorem into_complete : (s.complete κ sight).into = s.into := by
  cases s
  rw [complete]

theorem items_complete : (s.complete κ sight).items = s.items.map (·.complete κ sight) := by
  cases s
  rw [complete, Item.completeAll_eq_map]

theorem sources_complete : (s.complete κ sight).sources = s.sources.map (·.complete κ sight) := by
  cases s
  rw [complete, Source.completeAll_eq_map]

private theorem topIsSingleRow_complete (top : Option Top) :
    (Top.complete? κ top sight).any Top.isSingleRow = top.any Top.isSingleRow := by
  match top with
  | none => rw [Top.complete?]
  | some ⟨quantity, percent, withTies⟩ =>
    simp only [Top.complete?, Option.any_some, Top.isSingleRow, Expr.literal?_complete]

theorem singleRow_complete : (s.complete κ sight).singleRow = s.singleRow := by
  obtain ⟨distinct, top, items, into, sources, condition, groupBy, having⟩ := s
  simp only [complete, singleRow, topIsSingleRow_complete, Source.completeAll_eq_map,
    Item.completeAll_eq_map,
    List.isEmpty_map, Expr.isEmpty_completeAll, List.all_map, Function.comp_def,
    Item.isAggregate_complete]

end Select

mutual

/-- The leftmost block is completed in sight of the `WITH` clauses on the way to it. -/
theorem Body.exists_firstSelect_complete :
    ∀ (b : Body) (sight : List String), ∃ inside, (b.complete κ sight).firstSelect =
      b.firstSelect.complete κ inside
  | .select block, sight => ⟨sight, by rw [Body.complete, Body.firstSelect, Body.firstSelect]⟩
  | .setOp _ left _, sight => by
    rw [Body.complete, Body.firstSelect, Body.firstSelect]
    exact left.exists_firstSelect_complete sight
  | .nested query, sight => by
    rw [Body.complete, Body.firstSelect, Body.firstSelect]
    exact query.exists_firstSelect_complete sight

theorem Query.exists_firstSelect_complete :
    ∀ (q : Query) (sight : List String), ∃ inside, (q.complete κ sight).firstSelect =
      q.firstSelect.complete κ inside
  | ⟨body, ctes, _, _, _⟩, sight => by
    rw [Query.complete, Query.firstSelect, Query.firstSelect]
    exact body.exists_firstSelect_complete (Cte.keys ctes ++ sight)

end

namespace Query

variable (q : Query)

theorem body_complete :
    (q.complete κ sight).body = q.body.complete κ (Cte.keys q.ctes ++ sight) := by
  cases q
  rw [complete]

theorem ctes_complete : (q.complete κ sight).ctes = q.ctes.map (Cte.complete κ) := by
  cases q
  rw [complete, Cte.completeAll_eq_map]

theorem forJson?_complete (config : Config) :
    (q.complete κ sight).forJson? config = q.forJson? config := by
  cases q
  rw [complete]
  rfl

theorem into_complete : (q.complete κ sight).firstSelect.into = q.firstSelect.into := by
  obtain ⟨inside, h⟩ := q.exists_firstSelect_complete (κ := κ) sight
  rw [h, Select.into_complete]

theorem isVisible_complete : (q.complete κ sight).isVisible = q.isVisible := by
  obtain ⟨inside, h⟩ := q.exists_firstSelect_complete (κ := κ) sight
  rw [isVisible, isVisible, h, Select.into_complete, Select.items_complete, List.any_map]
  congr 2
  funext i
  exact i.isVisible_complete

theorem singleRow_complete : (q.complete κ sight).singleRow = q.singleRow := by
  unfold singleRow
  rw [body_complete]
  cases q.body with
  | select block =>
    rw [Body.complete]
    exact block.singleRow_complete
  | setOp | nested => rw [Body.complete]

end Query

end ResultShape
