import ResultShape.Proofs.Sql.Constructs
import ResultShape.Proofs.Sql.Definitions
import ResultShape.Proofs.Sql.Inner
import ResultShape.Text.Fold
/-! Places: the bodies that stand in a query, each with the definitions of CTEs that are in sight
there, and the functions that a body calls. -/
namespace ResultShape

mutual

/-- The functions without a built-in rule that an expression calls where its column is read off, the
queries inside it left out. -/
def Expr.calls : Expr → List Name
  | .cast _ operand _ => operand.calls
  | .call name args _ _ =>
    (if (BuiltinRule.ofCall? name).isNone then [name] else []) ++ argsCalls args
  | .iif _ yes no => yes.calls ++ no.calls
  | .case _ branches otherwise => branchesCalls branches ++ otherwiseCalls otherwise
  | .binary _ left right => left.calls ++ right.calls
  | .unary _ operand => operand.calls
  | .coalesce args => argsCalls args
  | .nullif left right => left.calls ++ right.calls
  | .paren inner => inner.calls
  | _ => []

def argsCalls : List Expr → List Name
  | [] => []
  | e :: es => e.calls ++ argsCalls es

def branchesCalls : List Branch → List Name
  | [] => []
  | ⟨_, result⟩ :: rest => result.calls ++ branchesCalls rest

def otherwiseCalls : Option Expr → List Name
  | none => []
  | some e => e.calls

end

def Item.calls : Item → List Name
  | .expr value _ => value.calls
  | _ => []

/-- The functions that give rows to a `FROM` clause. -/
def Source.calls : Source → List Name
  | .function name _ _ => [name]
  | .join _ left right _ => left.calls ++ right.calls
  | _ => []

def Select.calls (s : Select) : List Name :=
  s.sources.flatMap Source.calls ++ s.items.flatMap Item.calls

/-- The functions that the blocks of a body call, queries inside it left out. -/
def Body.calls : Body → List Name
  | .select block => block.calls
  | .nested _ => []
  | .setOp _ left right => left.calls ++ right.calls

theorem Body.calls_leftmost_subset (b : Body) : b.leftmost.calls ⊆ b.calls := by
  induction b using Body.leftmost.induct with
  | case1 op left right ih => exact fun n hn => List.mem_append_left _ (ih hn)
  | case2 body hb =>
    rw [Body.leftmost]
    · exact fun n hn => hn
    · exact hb

/-- The name is that of a CTE among the definitions; only a name of one part can be. -/
def Name.MeansCte (ctes : List Cte) (n : Name) : Prop :=
  n.schema = none ∧ n.catalog = none ∧ ∃ cte ∈ ctes, Text.same cte.name n.name

/-- A body stands in a query, which has definitions in sight, and has these ones in sight itself.
The leftmost branch of a definition by set operation stands there a second time, without the `WITH`
clause of that definition in sight; then, and inside it, the place is not `whole`. -/
inductive Query.HasBody : List Cte → Query → Bool → List Cte → Body → Prop where
  | own {ctes : List Cte} {q : Query} : HasBody ctes q true (q.ctes ++ ctes) q.body
  | inner {ctes inSight : List Cte} {q r : Query} {whole : Bool} {b : Body} (hr : r ∈ q.inner)
    (h : HasBody (q.ctes ++ ctes) r whole inSight b) : HasBody ctes q whole inSight b
  | leftmost {ctes : List Cte} {q : Query} {cte : Cte} (hc : cte ∈ q.ctes)
    (hset : cte.query.body.isSetOp) (hwith : cte.query.ctes ≠ []) :
      HasBody ctes q false (q.ctes ++ ctes) cte.query.body.leftmost
  | inLeftmost {ctes inSight : List Cte} {q r : Query} {cte : Cte} {whole : Bool} {b : Body}
    (hc : cte ∈ q.ctes) (hset : cte.query.body.isSetOp) (hwith : cte.query.ctes ≠ [])
    (hr : r ∈ cte.query.body.leftmost.queries) (h : HasBody (q.ctes ++ ctes) r whole inSight b) :
      HasBody ctes q false inSight b

/-- A property of bodies among the definitions in sight holds of all that stand in a query. -/
def Query.Everywhere (ok : List Cte → Body → Prop) (ctes : List Cte) (q : Query) : Prop :=
  ∀ whole inSight b, q.HasBody ctes whole inSight b → ok inSight b

namespace Query.Everywhere

variable {ok : List Cte → Body → Prop} {ctes : List Cte} {q r : Query}

theorem body (h : q.Everywhere ok ctes) : ok (q.ctes ++ ctes) q.body := h true _ _ .own

theorem inner (h : q.Everywhere ok ctes) (hr : r ∈ q.inner) : r.Everywhere ok (q.ctes ++ ctes) :=
  fun whole inSight b hb => h whole inSight b (.inner hr hb)

theorem of_mem_body (h : q.Everywhere ok ctes) (hr : r ∈ q.body.queries) :
    r.Everywhere ok (q.ctes ++ ctes) :=
  h.inner (List.mem_append_right _ hr)

theorem of_mem_ctes (h : q.Everywhere ok ctes) {cte : Cte} (hc : cte ∈ q.ctes) :
    cte.query.Everywhere ok (q.ctes ++ ctes) :=
  h.inner (List.mem_append_left _ (List.mem_map_of_mem hc))

/-- The property holds of the leftmost branch of a definition, whether it has the `WITH`
clause of this in sight or not. -/
theorem leftmost (hok : ∀ inSight b, ok inSight b → ok inSight b.leftmost)
    (h : q.Everywhere ok ctes) {cte : Cte} (hc : cte ∈ q.ctes) (hset : cte.query.body.isSetOp) :
    ok (q.ctes ++ ctes) cte.query.body.leftmost ∧
      ∀ r ∈ cte.query.body.leftmost.queries, r.Everywhere ok (q.ctes ++ ctes) := by
  by_cases hwith : cte.query.ctes = []
  · have hdefinition := h.of_mem_ctes hc
    have hsight : cte.query.ctes ++ (q.ctes ++ ctes) = q.ctes ++ ctes := by
      rw [hwith, List.nil_append]
    rw [← hsight]
    exact ⟨hok _ _ hdefinition.body, fun r hr =>
      hdefinition.of_mem_body (Body.queries_leftmost_subset _ hr)⟩
  · exact ⟨h false _ _ (.leftmost hc hset hwith),
      fun r hr whole inSight b hb => h false inSight b (.inLeftmost hc hset hwith hr hb)⟩

end Query.Everywhere

end ResultShape
