import ResultShape.Proofs.Analysis.Stays
import ResultShape.Proofs.Used.Scope
/-! Contexts of used objects: what the analysis keeps in its context mentions only
what is used, whatever it does. -/
namespace ResultShape

/-- The user-defined type of a variable is used. -/
def TypeFacts.MentionsOnly (used : Reference → Prop) (facts : TypeFacts) : Prop :=
  ∀ u, facts.userType = some u → used (.ofName .userDefinedType u)

/-- Whatever can be read from the context mentions only what is used; the `WITH`
clauses around are the given ones. -/
structure Context.MentionsOnly (used : Reference → Prop) (frames : List (List Cte))
    (c : Context) : Prop where
  cteFrames : c.cteFrames = frames
  scopes : c.scopes.MentionsOnly used
  scalars : c.bindings.scalars.Each (TypeFacts.MentionsOnly used)
  tables : c.bindings.tables.Each (ColumnMap.MentionsOnly used)
  cteCache : c.cteCache.Each (ColumnMap.MentionsOnly used)
  cteAnchors : c.cteAnchors.Each (ColumnMap.MentionsOnly used)

variable {used : Reference → Prop} {env : Env} {frames : List (List Cte)}

namespace Context.MentionsOnly

variable {c : Context} {name : String} {m : ColumnMap}

theorem start : MentionsOnly used [] {} := ⟨rfl, .nil, .empty, .empty, .empty, .empty⟩

theorem withScopes (h : c.MentionsOnly used frames) {stack : ScopeStack}
    (hs : stack.MentionsOnly used) :
    MentionsOnly used frames { c with scopes := stack } :=
  ⟨h.cteFrames, hs, h.scalars, h.tables, h.cteCache, h.cteAnchors⟩

theorem withDepth (h : c.MentionsOnly used frames) (depth : Nat) :
    MentionsOnly used frames { c with depth } :=
  ⟨h.cteFrames, h.scopes, h.scalars, h.tables, h.cteCache, h.cteAnchors⟩

theorem nextStatement (h : c.MentionsOnly used frames) : c.nextStatement.MentionsOnly used frames :=
  ⟨h.cteFrames, h.scopes, h.scalars, h.tables, h.cteCache, h.cteAnchors⟩

theorem bindScalar (h : c.MentionsOnly used frames) (name : String) {facts : TypeFacts}
    (hf : facts.MentionsOnly used) :
    MentionsOnly used frames { c with bindings := c.bindings.bindScalar name facts } :=
  ⟨h.cteFrames, h.scopes, h.scalars.insert _ hf, h.tables, h.cteCache, h.cteAnchors⟩

theorem bindTable (h : c.MentionsOnly used frames) (name : String) (hm : m.MentionsOnly used) :
    MentionsOnly used frames { c with bindings := c.bindings.bindTable name m } :=
  ⟨h.cteFrames, h.scopes, h.scalars, h.tables.insert _ hm, h.cteCache, h.cteAnchors⟩

theorem pushCtes (h : c.MentionsOnly used frames) (ctes : List Cte) :
    (c.pushCtes ctes).MentionsOnly used (ctes :: frames) :=
  ⟨congrArg (ctes :: ·) h.cteFrames, h.scopes, h.scalars, h.tables, h.cteCache, h.cteAnchors⟩

theorem popCtes {ctes : List Cte} (h : c.MentionsOnly used (ctes :: frames)) :
    c.popCtes.MentionsOnly used frames :=
  ⟨congrArg List.tail h.cteFrames, h.scopes, h.scalars, h.tables, h.cteCache, h.cteAnchors⟩

theorem cacheCte (h : c.MentionsOnly used frames) (name : String) (hm : m.MentionsOnly used) :
    (c.cacheCte name m).MentionsOnly used frames :=
  ⟨h.cteFrames, h.scopes, h.scalars, h.tables, h.cteCache.insert _ hm, h.cteAnchors⟩

theorem setCteAnchor (h : c.MentionsOnly used frames) (name : String) (hm : m.MentionsOnly used) :
    (c.setCteAnchor name m).MentionsOnly used frames :=
  ⟨h.cteFrames, h.scopes, h.scalars, h.tables, h.cteCache, h.cteAnchors.insert _ hm⟩

theorem beginCte (h : c.MentionsOnly used frames) (name : String) :
    (c.beginCte name).MentionsOnly used frames := by
  unfold Context.beginCte
  split
  · exact h
  · exact ⟨h.cteFrames, h.scopes, h.scalars, h.tables, h.cteCache, h.cteAnchors⟩

theorem endCte (h : c.MentionsOnly used frames) (name : String) :
    (c.endCte name).MentionsOnly used frames :=
  ⟨h.cteFrames, h.scopes, h.scalars, h.tables, h.cteCache, h.cteAnchors.erase _⟩

end Context.MentionsOnly

/-- From a context that mentions only what is used, an action that succeeds leaves one, and
its value has the property. -/
abbrev Analysis.MentionsOnly (used : Reference → Prop) (frames : List (List Cte)) (env : Env)
    {α : Type} (Q : α → Prop) (x : Analysis α) : Prop :=
  Analysis.Stays (Context.MentionsOnly used frames) env Q x

namespace Analysis.MentionsOnly

variable {α : Type} {Q : α → Prop} {x : Analysis α}

theorem inScope (hx : MentionsOnly used frames env Q x) :
    MentionsOnly used frames env Q (inScope x) :=
  Stays.between (fun _ hc => hc.withScopes hc.scopes.push) hx fun _ hc =>
    hc.withScopes hc.scopes.tail

theorem withCtes {ctes : List Cte} (hx : MentionsOnly used (ctes :: frames) env Q x) :
    MentionsOnly used frames env Q (withCtes ctes x) :=
  Stays.between (fun _ hc => hc.pushCtes ctes) hx fun _ hc => hc.popCtes

theorem opening (hx : MentionsOnly used frames env Q x) :
    MentionsOnly used frames env Q (opening x) :=
  Stays.opening (fun _ depth hc => hc.withDepth depth) hx

theorem computingCte (name : String) (hx : MentionsOnly used frames env Q x) :
    MentionsOnly used frames env Q (computingCte name x) :=
  Stays.computingCte name (fun _ hc => (hc.beginCte name).withScopes .nil)
    (fun _ _ hc ho => (hc.endCte name).withScopes ho.scopes) hx

theorem addEntry {e : Entry} (he : e.MentionsOnly used) (names : List String) :
    MentionsOnly used frames env (fun _ => True) (addEntry e names) :=
  Stays.modify fun _ hc => hc.withScopes (hc.scopes.add he names)

variable (ht : env.catalog.TypesUsed used)

include ht

theorem lookup (ref : ColumnRef) :
    MentionsOnly used frames env (fun found => ∀ c, found = .found c → c.MentionsOnly used)
      (fromScopes fun catalog => ScopeStack.lookup catalog ref) :=
  Stays.fromScopes fun _ hc => ⟨fun _ hfound => hc.scopes.lookup ht hfound,
    hc.withScopes (hc.scopes.of_loaded ht (ScopeStack.loaded_lookup ref _))⟩

theorem star (qualifier : Option String) :
    MentionsOnly used frames env (fun columns => ∀ c ∈ columns, c.MentionsOnly used)
      (star qualifier) := by
  have hexpand :
      MentionsOnly used frames env
        (fun o => ∀ columns, o = some columns → ∀ c ∈ columns, c.MentionsOnly used)
      (fromScopes fun catalog => ScopeStack.expand catalog qualifier) :=
    Stays.fromScopes fun _ hc => ⟨fun _ hcolumns => hc.scopes.expand ht hcolumns,
      hc.withScopes (hc.scopes.of_loaded ht (ScopeStack.loaded_expand qualifier _))⟩
  refine hexpand.bind fun o ho => .pure ?_
  cases o with
  | some columns => exact ho columns rfl
  | none => exact List.forall_mem_singleton.2 (.plain _ _ _ _ _ _ _ _)

end Analysis.MentionsOnly

end ResultShape
