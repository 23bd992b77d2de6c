import ResultShape.Sql.Query
import ResultShape.Text.Fold
/-! Inner queries: which queries stand directly inside a piece of a query where its columns are read
off, and the finitely many queries that stand inside a query at any level. -/
namespace ResultShape

mutual

/-- The queries whose columns an expression reads. Conditions, `EXISTS` and the like
have a type whatever they ask. -/
def Expr.queries : Expr → List Query
  | .cast _ operand _ => operand.queries
  | .call _ args _ _ => argsQueries args
  | .iif _ yes no => yes.queries ++ no.queries
  | .case _ branches otherwise => branchesQueries branches ++ otherwiseQueries otherwise
  | .binary _ left right => left.queries ++ right.queries
  | .unary _ operand => operand.queries
  | .coalesce args => argsQueries args
  | .nullif left right => left.queries ++ right.queries
  | .subquery query => [query]
  | .paren inner => inner.queries
  | _ => []

def argsQueries : List Expr → List Query
  | [] => []
  | e :: es => e.queries ++ argsQueries es

def branchesQueries : List Branch → List Query
  | [] => []
  | ⟨_, result⟩ :: rest => result.queries ++ branchesQueries rest

def otherwiseQueries : Option Expr → List Query
  | none => []
  | some e => e.queries

end

def Item.queries : Item → List Query
  | .expr value _ => value.queries
  | _ => []

/-- The derived tables of a source. -/
def Source.queries : Source → List Query
  | .derived query _ _ => [query]
  | .join _ left right _ => left.queries ++ right.queries
  | _ => []

def Select.queries (s : Select) : List Query :=
  s.sources.flatMap Source.queries ++ s.items.flatMap Item.queries

def Body.queries : Body → List Query
  | .select block => block.queries
  | .nested query => [query]
  | .setOp _ left right => left.queries ++ right.queries

/-- The names that the sources of a `FROM` clause are referred to by, derived tables left out. -/
def Source.references : Source → List Name
  | .named name _ => [name]
  | .join _ left right _ => left.references ++ right.references
  | _ => []

def Select.references (s : Select) : List Name := s.sources.flatMap Source.references

/-- The names that the blocks of a body refer to, queries inside it left out. -/
def Body.references : Body → List Name
  | .select block => block.references
  | .nested _ => []
  | .setOp _ left right => left.references ++ right.references

/-- The queries directly inside a query, those that its `WITH` clause defines among them. -/
def Query.inner (q : Query) : List Query := q.ctes.map (·.query) ++ q.body.queries

theorem Expr.sizeOf_lt_of_mem_queries (e : Expr) : ∀ q ∈ e.queries, sizeOf q < sizeOf e := by
  induction e using
    Expr.queries.induct (motive_2 := fun o => ∀ q ∈ otherwiseQueries o, sizeOf q < sizeOf o)
    (motive_3 := fun bs => ∀ q ∈ branchesQueries bs, sizeOf q < sizeOf bs)
    (motive_4 := fun es => ∀ q ∈ argsQueries es, sizeOf q < sizeOf es) <;>
  simp_all only [Expr.queries, argsQueries, branchesQueries, otherwiseQueries, List.mem_append,
    List.not_mem_nil, List.mem_singleton] <;>
  grind

theorem Item.sizeOf_lt_of_mem_queries (i : Item) : ∀ q ∈ i.queries, sizeOf q < sizeOf i := by
  intro q hq
  cases i with
  | expr value aliasName =>
    have := value.sizeOf_lt_of_mem_queries q hq
    simp only [Item.expr.sizeOf_spec]
    omega
  | star => cases hq
  | assign => cases hq

theorem Source.sizeOf_lt_of_mem_queries (s : Source) : ∀ q ∈ s.queries, sizeOf q < sizeOf s := by
  induction s using Source.queries.induct <;> simp only [Source.queries, List.mem_append] <;> grind

theorem Select.sizeOf_lt_of_mem_queries (s : Select) : ∀ q ∈ s.queries, sizeOf q < sizeOf s := by
  intro q hq
  rcases s with ⟨distinct, top, items, into, sources, condition, groupBy, having⟩
  simp only [Select.queries, List.mem_append, List.mem_flatMap, Select.mk.sizeOf_spec] at hq ⊢
  rcases hq with ⟨source, hs, hq⟩ | ⟨item, hi, hq⟩
  · have := source.sizeOf_lt_of_mem_queries q hq
    have := List.sizeOf_lt_of_mem hs
    omega
  · have := item.sizeOf_lt_of_mem_queries q hq
    have := List.sizeOf_lt_of_mem hi
    omega

theorem Body.sizeOf_lt_of_mem_queries (b : Body) : ∀ q ∈ b.queries, sizeOf q < sizeOf b := by
  induction b using Body.queries.induct with
  | case1 block =>
    intro q hq
    have := block.sizeOf_lt_of_mem_queries q hq
    simp only [Body.select.sizeOf_spec]
    omega
  | case2 query => simp [Body.queries]
  | case3 op left right ihl ihr =>
    simp only [Body.queries, List.mem_append, Body.setOp.sizeOf_spec]
    grind

theorem Query.sizeOf_lt_of_mem_inner {q r : Query} (h : r ∈ q.inner) : sizeOf r < sizeOf q := by
  rcases q with ⟨body, ctes, orderBy, forClause, sourceText⟩
  simp only [Query.inner, List.mem_append, List.mem_map, Query.mk.sizeOf_spec] at h ⊢
  rcases h with ⟨cte, hc, rfl⟩ | h
  · have := List.sizeOf_lt_of_mem hc
    rcases cte with ⟨name, columns, query⟩
    simp only [Cte.mk.sizeOf_spec] at this ⊢
    omega
  · have := body.sizeOf_lt_of_mem_queries r h
    omega

/-- The query itself and the queries inside it at any level. -/
def Query.subqueries (q : Query) : List Query :=
  q :: q.inner.attach.flatMap fun r => r.1.subqueries
termination_by sizeOf q
decreasing_by exact Query.sizeOf_lt_of_mem_inner r.2

namespace Query

variable {q r s : Query}

theorem mem_subqueries : r ∈ q.subqueries ↔ r = q ∨ ∃ s ∈ q.inner, r ∈ s.subqueries := by
  rw [subqueries]
  simp

theorem mem_subqueries_self (q : Query) : q ∈ q.subqueries := mem_subqueries.2 (.inl rfl)

theorem mem_subqueries_of_inner (hs : s ∈ q.inner) (hr : r ∈ s.subqueries) : r ∈ q.subqueries :=
  mem_subqueries.2 (.inr ⟨s, hs, hr⟩)

theorem mem_subqueries_trans (hr : r ∈ q.subqueries) (hs : s ∈ r.subqueries) :
    s ∈ q.subqueries := by
  induction q using subqueries.induct with
  | case1 q ih =>
    rcases mem_subqueries.1 hr with rfl | ⟨t, ht, hr⟩
    · exact hs
    · exact mem_subqueries_of_inner ht (ih ⟨t, ht⟩ hr)

/-- No `FROM` clause in the query, at any level, refers to this name. -/
def Avoids (name : String) (q : Query) : Prop :=
  ∀ r ∈ q.subqueries, ∀ n ∈ r.body.references, Text.same n.name name = false

/-- A query avoids a name if its blocks do and so do the queries directly inside it. -/
theorem avoids_iff {name : String} :
    q.Avoids name ↔ (∀ n ∈ q.body.references, Text.same n.name name = false) ∧
    ∀ r ∈ q.inner, r.Avoids name := by
  refine ⟨fun h =>
    ⟨h q q.mem_subqueries_self, fun r hr s hs => h s (mem_subqueries_of_inner hr hs)⟩, ?_⟩
  rintro ⟨hreferences, hinner⟩ r hr
  rcases mem_subqueries.1 hr with rfl | ⟨s, hs, hr⟩
  · exact hreferences
  · exact hinner s hs r hr

theorem Avoids.references {name : String} (h : q.Avoids name) :
    ∀ n ∈ q.body.references, Text.same n.name name = false :=
  (avoids_iff.1 h).1

theorem Avoids.inner {name : String} (h : q.Avoids name) (hr : r ∈ q.inner) : r.Avoids name :=
  (avoids_iff.1 h).2 r hr

end Query

theorem Body.references_leftmost_subset (b : Body) : b.leftmost.references ⊆ b.references := by
  induction b using Body.leftmost.induct with
  | case1 op left right ih => exact fun n hn => List.mem_append_left _ (ih hn)
  | case2 body hb =>
    rw [Body.leftmost]
    · exact fun n hn => hn
    · exact hb

end ResultShape
