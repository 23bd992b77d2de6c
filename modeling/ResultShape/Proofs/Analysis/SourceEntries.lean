import ResultShape.Proofs.Analysis.FirstReference
import ResultShape.Proofs.Analysis.LeafEntries
import ResultShape.Proofs.Analysis.Qualifier
/-! Entries of sources: a table or view has its entry from the catalog, a local table from the
bindings, and a CTE or a derived table from what its query comes to there. -/
namespace ResultShape

theorem Context.GoesOn.trans {env : Env} {c c₁ c₂ : Context} (h₁ : c.GoesOn env c₁)
    (h₂ : c₁.GoesOn env c₂) :
    c.GoesOn env c₂ := by
  induction h₂ with
  | refl => exact h₁
  | source _ s hs ih => exact .source ih s hs
  | expr _ e he ih => exact .expr ih e he
  | query _ q hq ih => exact .query ih q hq
  | step _ hs hstatement hcache ih => exact .step ih hs hstatement hcache

open Analysis

/-- The entry that a single source adds when it is registered in a context, before
any column of it is looked up. -/
inductive Source.Adds (env : Env) (c : Context) : Source → Entry → Prop where
  | table {name : Name} (aliasName : Option String) (hlocal : name.isLocal = false)
    (hcte : c.cteNamed? name = none) :
      Adds env c (.named name aliasName)
        (.table name (name.schema.getD env.config.defaultSchema) aliasName
          ((env.catalog.objectKind? name).getD .table))
  | temporary {name : Name} (aliasName : Option String) (hlocal : name.isLocal = true) :
    Adds env c (.named name aliasName) (.resolved name.name aliasName (c.bindings.table? name.name))
  | cte {name : Name} {cte : Cte} {k : Nat} {c₀ c₁ : Context} {columns : ColumnMap}
    (aliasName : Option String) (hlocal : name.isLocal = false) (hcte : c.cteNamed? name = some cte)
    (hc : c.GoesOn env c₀)
    (hm : (cteColumns (Nested.within k) cte).outcome env c₀ = (.ok columns, c₁)) :
      Adds env c (.named name aliasName)
        { Entry.resolved cte.name aliasName (some columns) with isCte := true }
  | «variable» (name : String) (aliasName : Option String) :
    Adds env c (.var name aliasName) (.resolved name aliasName (c.bindings.table? name))
  | derived {q : Query} {k : Nat} {c₀ c₁ : Context} {set : ResultSet} (aliasName : String)
    (renames : List String) (hc : c.GoesOn env c₀)
    (hq : ((Nested.within k).query q).outcome env c₀ = (.ok set, c₁)) :
      Adds env c (.derived q aliasName renames)
        (.resolved aliasName none (some (.ofColumns set.columns renames)))
  /-- A function adds the same entry wherever it is called. -/
  | function {name : Name} {e : Entry} (args : List Expr) (aliasName : Option String)
    (h : ∀ c₀, ((addFunction name aliasName).outcome env c₀).2.scopes.entries =
      c₀.scopes.entries ++ [e]) :
    Adds env c (.function name args aliasName) e
  | openJson (value : Expr) (path : Option String) (columns : List OpenJsonColumn)
    (aliasName : Option String) :
      Adds env c (.openJson value path columns aliasName)
        (.resolved "OPENJSON" aliasName (some (.ofInfos
          (if columns.isEmpty then openJsonDefault else columns.map (openJsonColumn env.catalog)))))

/-- The entry is one that the source adds, whatever of it has been looked up or marked since. -/
def Entry.ComesFrom (env : Env) (c : Context) (s : Source) (e : Entry) : Prop :=
  ∃ added, s.Adds env c added ∧
    e.load env.catalog = { added with forceNullable := e.forceNullable }.load env.catalog

namespace Entry.ComesFrom

variable {env : Env} {c : Context} {s : Source} {e e' : Entry}

theorem of_adds (h : s.Adds env c e) : e.ComesFrom env c s := ⟨e, h, rfl⟩

theorem loaded (h : e.ComesFrom env c s) (he : Entry.Loaded env.catalog e e') :
    e'.ComesFrom env c s := by
  obtain ⟨added, hadds, hload⟩ := h
  refine ⟨added, hadds, ?_⟩
  rw [he.load_eq, he.forceNullable_eq, hload]

theorem markIf (h : e.ComesFrom env c s) (mayMiss : Bool) :
    (e.markIf mayMiss).ComesFrom env c s := by
  obtain ⟨added, hadds, hload⟩ := h
  cases mayMiss with
  | false => exact ⟨added, hadds, hload⟩
  | true => exact ⟨added, hadds, congrArg Entry.markNullable hload⟩

end Entry.ComesFrom

namespace Source.Adds

variable {env : Env} {k : Nat} {c c₁ c' : Context} {s : Source}

/-- An entry that is added in a later context of the same statement may be
added in an earlier one. -/
theorem earlier {e : Entry} (hc : c.GoesOn env c₁) (hf : c₁.cteFrames = c.cteFrames)
    (hb : c₁.bindings = c.bindings) (h : s.Adds env c₁ e) : s.Adds env c e := by
  have hname (name : Name) : c₁.cteNamed? name = c.cteNamed? name := by
    simp only [Context.cteNamed?, Context.findCte?, hf]
  cases h with
  | table aliasName hlocal hcte => exact .table aliasName hlocal (hname _ ▸ hcte)
  | temporary aliasName hlocal => exact hb ▸ .temporary aliasName hlocal
  | cte aliasName hlocal hcte hc₁ hm =>
    exact .cte aliasName hlocal (hname _ ▸ hcte) (hc.trans hc₁) hm
  | «variable» name aliasName => exact hb ▸ .variable name aliasName
  | derived aliasName renames hc₁ hq => exact .derived aliasName renames (hc.trans hc₁) hq
  | function args aliasName h => exact .function args aliasName h
  | openJson value path columns aliasName => exact .openJson value path columns aliasName

theorem of_pushScope {e : Entry} (h : s.Adds env c.pushScope e) : s.Adds env c e :=
  h.earlier (.step .refl (.scopes c ({} :: c.scopes)) rfl rfl) rfl rfl

private theorem getElem?_add {stack : ScopeStack} {e : Entry} {names : List String}
    (h : c'.scopes = stack.add e names) (hl : stack.entries.length = c.scopes.entries.length) :
    c'.scopes.entries[c.scopes.entries.length]? = some e := by
  rw [h, ScopeStack.entries_add, ← hl]
  exact List.getElem?_concat_length

private theorem exists_of_addNamed {name : Name} {aliasName : Option String}
    (h : (addNamed (Nested.within k) name aliasName).outcome env c = (.ok (), c')) :
    ∃ e, c'.scopes.entries[c.scopes.entries.length]? = some e ∧
      Adds env c (.named name aliasName) e := by
  unfold addNamed at h
  split at h
  · rename_i hlocal
    cases h
    exact ⟨_, getElem?_add rfl rfl, .temporary aliasName hlocal⟩
  · rename_i hlocal
    obtain ⟨c₀, c₁, hget, h⟩ := outcome_bind_eq_ok.1 h
    cases hget
    split at h
    · rename_i cte hcte
      obtain ⟨m, c₁, hm, h⟩ := outcome_bind_eq_ok.1 h
      cases h
      have hl := Loads.cteColumns env (Nested.within k) cte c
      rw [hm] at hl
      exact ⟨_, getElem?_add rfl hl.length_entries,
        .cte aliasName (by simpa using hlocal) hcte .refl hm⟩
    · rename_i hcte
      cases h
      exact ⟨_, getElem?_add rfl rfl, .table aliasName (by simpa using hlocal) hcte⟩

private theorem exists_of_addDerived {q : Query} {aliasName : String} {renames : List String}
    (h : (addDerived (Nested.within k) q aliasName renames).outcome env c = (.ok (), c')) :
    ∃ e, c'.scopes.entries[c.scopes.entries.length]? = some e ∧
      Adds env c (.derived q aliasName renames) e := by
  obtain ⟨set, c₁, hq, h⟩ := outcome_bind_eq_ok.1 h
  cases h
  have hl := (Loads.within env k q).1 c
  rw [hq] at hl
  exact ⟨_, getElem?_add rfl hl.length_entries, .derived aliasName renames .refl hq⟩

private theorem exists_of_addFunction (env : Env) (name : Name) (aliasName : Option String) :
    ∃ e, ∀ c : Context, ((addFunction name aliasName).outcome env c).2.scopes.entries =
      c.scopes.entries ++ [e] := by
  unfold addFunction
  split
  · exact ⟨_, fun c => ScopeStack.entries_add c.scopes _ _⟩
  · exact ⟨_, fun c => ScopeStack.entries_add c.scopes _ _⟩

/-- A source that is no join adds its entry behind those that were there. -/
private theorem exists_of_register {range : Nat × Nat}
    (hs : ∀ kind left right on, s ≠ .join kind left right on)
    (h : (s.register (Nested.within k)).outcome env c = (.ok range, c')) :
    ∃ e, c'.scopes.entries[c.scopes.entries.length]? = some e ∧ s.Adds env c e := by
  cases s with
  | named name aliasName => exact exists_of_addNamed (Appends.of_added h).1
  | var name aliasName =>
    obtain ⟨hx, -⟩ := Appends.of_added h
    cases hx
    exact ⟨_, getElem?_add rfl rfl, .variable name aliasName⟩
  | derived q aliasName renames => exact exists_of_addDerived (Appends.of_added h).1
  | function name args aliasName =>
    obtain ⟨hx, -⟩ := Appends.of_added h
    obtain ⟨e, he⟩ := exists_of_addFunction env name aliasName
    refine ⟨e, ?_, .function args aliasName he⟩
    have hc := he c
    rw [hx] at hc
    rw [hc]
    exact List.getElem?_concat_length
  | openJson value path columns aliasName =>
    obtain ⟨hx, -⟩ := Appends.of_added h
    cases hx
    exact ⟨_, getElem?_add rfl rfl, .openJson value path columns aliasName⟩
  | join kind left right on => exact absurd rfl (hs kind left right on)

/-- The entries of the leaves come from their sources. -/
theorem holdsOfLeaves (env : Env) (k : Nat) :
    HoldsOfLeaves env k fun c s e => c.Anchored → e.ComesFrom env c s where
  leaf hs h := by
    obtain ⟨e, he, hadds⟩ := exists_of_register hs h
    exact ⟨e, he, fun _ => .of_adds hadds⟩
  loaded h he := fun hc => (h hc).loaded he
  markIf h mayMiss := fun hc => (h hc).markIf mayMiss
  earlier := by
    intro c c₁ s s' e range hr h hc
    have hkept := (Replays.register env k s' c range c₁ hc hr).1
    obtain ⟨added, hadds, hload⟩ := h hkept.anchored
    exact ⟨added, hadds.earlier (.source .refl s' hr) hkept.cteFrames hkept.bindings, hload⟩

end Source.Adds

end ResultShape
