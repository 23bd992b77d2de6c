import ResultShape.Analysis.Depth
import ResultShape.Scope.Basic
import ResultShape.Scope.Bindings
/-! The state of an analysis: scopes, bindings and common table expressions, and actions on it. -/
namespace ResultShape

/-- What an analysis reads and never changes. -/
structure Env where
  catalog : Catalog
  config : Config

structure Context where
  scopes : ScopeStack := []
  bindings : Bindings := {}
  /-- The `WITH` clauses around a place, the innermost first. -/
  cteFrames : List (List Cte) := []
  /-- Columns of CTEs, by the number of the statement and the folded name. -/
  cteCache : Keyed (Nat × String) ColumnMap := .empty
  /-- Columns that a CTE shows to itself while it is being computed. -/
  cteAnchors : Keyed String ColumnMap := .empty
  /-- The folded names of the CTEs that are being computed. -/
  ctesInProgress : List String := []
  /-- The number of the current statement. -/
  statement : Nat := 0
  /-- How many queries are open inside one another. -/
  depth : Nat := 0
  deriving Inhabited

namespace Context

/-- A new statement, which uses no columns computed for an earlier one. -/
def nextStatement (c : Context) : Context := { c with statement := c.statement + 1 }

/-- The depth of the context, against a limit. -/
def depthWithin (c : Context) (limit : Nat) : Depth := { limit, opened := c.depth }

def setDepth (d : Depth) (c : Context) : Context := { c with depth := d.opened }

/-- One query less is open. -/
def leave (c : Context) : Context := { c with depth := c.depth - 1 }

def pushScope (c : Context) : Context := { c with scopes := {} :: c.scopes }

def popScope (c : Context) : Context := { c with scopes := c.scopes.tail }

def pushCtes (ctes : List Cte) (c : Context) : Context :=
  { c with cteFrames := ctes :: c.cteFrames }

def popCtes (c : Context) : Context := { c with cteFrames := c.cteFrames.tail }

/-- The CTE of this name in the innermost `WITH` clause that has one. -/
def findCte? (c : Context) (name : String) : Option Cte :=
  c.cteFrames.flatten.find? fun cte => Text.same cte.name name

/-- The CTE that an object name means; only a name of one part does. -/
def cteNamed? (c : Context) (name : Name) : Option Cte :=
  if name.schema.isNone && name.catalog.isNone then c.findCte? name.name else none

def cachedCte? (c : Context) (name : String) : Option ColumnMap :=
  c.cteCache.get? (c.statement, Text.fold name)

def cacheCte (name : String) (columns : ColumnMap) (c : Context) : Context :=
  { c with cteCache := c.cteCache.insert (c.statement, Text.fold name) columns }

def isCteInProgress (c : Context) (name : String) : Bool :=
  c.ctesInProgress.contains (Text.fold name)

def beginCte (name : String) (c : Context) : Context :=
  if c.isCteInProgress name then c
  else { c with ctesInProgress := Text.fold name :: c.ctesInProgress }

/-- The CTE is computed; what it showed to itself is forgotten. -/
def endCte (name : String) (c : Context) : Context :=
  { c with
    ctesInProgress := c.ctesInProgress.filter (· ≠ Text.fold name)
    cteAnchors := c.cteAnchors.erase (Text.fold name) }

def setCteAnchor (name : String) (columns : ColumnMap) (c : Context) : Context :=
  { c with cteAnchors := c.cteAnchors.insert (Text.fold name) columns }

def cteAnchor? (c : Context) (name : String) : Option ColumnMap :=
  c.cteAnchors.get? (Text.fold name)

end Context

/-- An action that reads the environment and changes the context, also when it ends in an error. -/
abbrev Analysis := ReaderT Env (ExceptT AnalysisError (StateM Context))

namespace Analysis

variable {α : Type}

/-- The action between two changes of the context, the second of which is
made after an error too. -/
def between (before after : Context → Context) (x : Analysis α) : Analysis α :=
  fun env => ExceptT.mk do
  modify before
  let result ← (x env).run
  modify after
  return result

/-- The action in a scope of its own inside those around it. -/
def inScope (x : Analysis α) : Analysis α := between .pushScope .popScope x

/-- The action under one more `WITH` clause. -/
def withCtes (ctes : List Cte) (x : Analysis α) : Analysis α := between (.pushCtes ctes) .popCtes x

/-- The action inside one more open query, if the limit allows one. -/
def opening (x : Analysis α) : Analysis α := do
  match ((← get).depthWithin (← read).config.maxNestingDepth).enter with
  | .ok inside => between (.setDepth inside) .leave x
  | .error e => throw e

/-- The action in the place of a CTE's definition, where none of the scopes
around the reference is visible. -/
def computingCte (name : String) (x : Analysis α) : Analysis α := do
  let outer := (← get).scopes
  between (fun c => { c.beginCte name with scopes := [] })
    (fun c => { c.endCte name with scopes := outer }) x

/-- The outcome of an action, and the context that it leaves. -/
def outcome (x : Analysis α) (env : Env) (c : Context) : Except AnalysisError α × Context :=
  (x env).run.run c

def catalog : Analysis Catalog := return (← read).catalog

def bindings : Analysis Bindings := return (← get).bindings

def defaultSchema : Analysis String := return (← read).config.defaultSchema

def addEntry (e : Entry) (names : List String) : Analysis Unit :=
  modify fun c => { c with scopes := c.scopes.add e names }

/-- An answer of the scopes, which load columns to give it. -/
def fromScopes (ask : Catalog → ScopeStack → α × ScopeStack) : Analysis α := do
  let (answer, scopes) := ask (← catalog) (← get).scopes
  modify fun c => { c with scopes }
  return answer

end Analysis

end ResultShape
