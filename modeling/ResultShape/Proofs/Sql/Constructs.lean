import ResultShape.Proofs.Sql.Inner
import ResultShape.Typing.Builtin
/-! Constructs: what a query contains that gives a column other facts than those it is read with. -/
namespace ResultShape

/-- A place where type or nullability of a column may change. -/
inductive Construct where
  /-- A type is written down. -/
  | dataType (type : DataType)
  | cast (kind : CastKind)
  /-- `ISNULL` or `COALESCE`. -/
  | merge
  | nullif
  | jsonQuery
  | setOp

/-- The construct that a call of a built-in function is. -/
def BuiltinRule.constructs : BuiltinRule → List Construct
  | .isNull | .coalesce => [.merge]
  | .nullif => [.nullif]
  | .jsonQuery => [.jsonQuery]
  | _ => []

/-- The rule by which a call is typed; none for a user-defined function. -/
def BuiltinRule.ofCall? (name : Name) : Option BuiltinRule :=
  if name.schema.isSome then none else ofName? name.name

theorem BuiltinRule.ofName?_congr {a b : String} (h : Text.fold a = Text.fold b) :
    ofName? a = ofName? b := by
  unfold ofName? AggregateRegistry.isAggregate AggregateRegistry.get?
  rw [h]

mutual

/-- The constructs of an expression where its column is read off, the queries inside it left out. -/
def Expr.constructs : Expr → List Construct
  | .cast kind operand target => .cast kind :: .dataType target :: operand.constructs
  | .call name args _ _ =>
    ((BuiltinRule.ofCall? name).elim [] (·.constructs)) ++ argsConstructs args
  | .iif _ yes no => yes.constructs ++ no.constructs
  | .case _ branches otherwise => branchesConstructs branches ++ otherwiseConstructs otherwise
  | .binary _ left right => left.constructs ++ right.constructs
  | .unary _ operand => operand.constructs
  | .coalesce args => .merge :: argsConstructs args
  | .nullif left right => .nullif :: (left.constructs ++ right.constructs)
  | .paren inner => inner.constructs
  | _ => []

def argsConstructs : List Expr → List Construct
  | [] => []
  | e :: es => e.constructs ++ argsConstructs es

def branchesConstructs : List Branch → List Construct
  | [] => []
  | ⟨_, result⟩ :: rest => result.constructs ++ branchesConstructs rest

def otherwiseConstructs : Option Expr → List Construct
  | none => []
  | some e => e.constructs

end

def Item.constructs : Item → List Construct
  | .expr value _ => value.constructs
  | _ => []

/-- The types in the schemas of a source. -/
def Source.constructs : Source → List Construct
  | .openJson _ _ columns _ => columns.map fun c => .dataType c.type
  | .join _ left right _ => left.constructs ++ right.constructs
  | _ => []

def Select.constructs (s : Select) : List Construct :=
  s.sources.flatMap Source.constructs ++ s.items.flatMap Item.constructs

def Body.constructs : Body → List Construct
  | .select block => block.constructs
  | .nested _ => []
  | .setOp _ left right => .setOp :: (left.constructs ++ right.constructs)

/-- The constructs of a query and of the queries inside it at any level. -/
def Query.constructs (q : Query) : List Construct := q.subqueries.flatMap (·.body.constructs)

namespace Query

variable {q r : Query}

theorem constructs_body_subset (q : Query) : q.body.constructs ⊆ q.constructs :=
  fun _ hk => List.mem_flatMap.2 ⟨q, q.mem_subqueries_self, hk⟩

theorem constructs_subset_of_mem_inner (h : r ∈ q.inner) : r.constructs ⊆ q.constructs := by
  intro k hk
  obtain ⟨s, hs, hk⟩ := List.mem_flatMap.1 hk
  exact List.mem_flatMap.2 ⟨s, mem_subqueries_of_inner h hs, hk⟩

end Query

theorem Body.constructs_leftmost_subset (b : Body) : b.leftmost.constructs ⊆ b.constructs := by
  induction b using Body.leftmost.induct with
  | case1 op left right ih =>
    exact fun k hk => List.mem_cons_of_mem _ (List.mem_append_left _ (ih hk))
  | case2 body hb =>
    rw [Body.leftmost]
    · exact fun k hk => hk
    · exact hb

end ResultShape
