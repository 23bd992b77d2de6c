import ResultShape.Proofs.Alike.Model
/-! Same names: two analyses of which the second one sees other expressions under the same names.
What they come to is not only alike but the same. -/
namespace ResultShape

/-- Other expressions, but the same names, and none of the analysis depends on which
of the expressions it sees. -/
structure Rewriting.Faithful (ρ : Rewriting) : Prop extends ρ.KeepsForm where
  name : ∀ s, ρ.name s = s
  meaning : ∀ (e : Expr) (n : Nested), (ρ.expr e).meaning n = e.meaning n
  resolve_value : ∀ (e : Expr) (n : Nested), (ρ.value e).resolve n = e.resolve n

/-- The context with the definitions in sight rewritten. -/
def Context.rewriteCtes (ρ : Rewriting) (c : Context) : Context :=
  { c with cteFrames := c.cteFrames.map (·.map (Cte.rewrite ρ)) }

namespace Likeness

/-- A routine and the routine with other expressions in it. -/
def sameNames (ρ : Rewriting) : Likeness where
  rewriting := ρ
  same := Eq
  holds _ := True
  allows _ := True

variable {ρ : Rewriting} {env : Env}

theorem lawful_sameNames (hρ : ρ.Faithful) (env : Env) : (sameNames ρ).Lawful env where
  keepsForm := hρ.toKeepsForm
  meaning := hρ.meaning
  resolve_value := hρ.resolve_value
  name s := (hρ.name s).symm
  refl _ := rfl
  append ha hb := congrArg₂ (· ++ ·) ha hb
  fold_eq h := congrArg Text.fold h
  fill f text := by
    have hid : text.map ρ.name = text := by rw [funext hρ.name, Option.map_id']
    rw [sameNames, hid]
    exact ⟨rfl, rfl, rel_refl (R := Eq) (fun _ => rfl) _, rfl⟩
  untyped _ _ := trivial
  ambiguous := trivial
  written _ := trivial
  stored _ := trivial
  copied _ _ _ := trivial
  cast _ _ _ := trivial
  merged _ _ _ _ := trivial
  nullif _ _ := trivial
  jsonFragment _ _ := trivial
  widened _ _ _ := trivial

section Results

private theorem eq_of_rel {α : Type} {R : α → α → Prop} (hR : ∀ {a b}, R a b → a = b)
    {o o' : Option α} (h : Option.Rel R o o') : o = o' := by
  cases h with
  | none => rfl
  | some h => rw [hR h]

private theorem eq_of_forall₂ {α : Type} {R : α → α → Prop} (hR : ∀ {a b}, R a b → a = b)
    {as bs : List α} (h : List.Forall₂ R as bs) : as = bs := by
  simpa only [List.map_id] using map_eq_map (f := id) (g := id) h fun _ _ => hR

private theorem eq_of_reference {r r' : Reference} (h : r.Alike Eq r') : r = r' := by
  cases r
  cases r'
  rw [Reference.mk.injEq]
  exact ⟨h.kind, eq_of_rel id h.catalog, eq_of_rel id h.schema, h.name⟩

private theorem eq_of_flat {c c' : ResultColumn} (h : c.Alike Eq c')
    (hchildren : c.children = c'.children) : c = c' := by
  have hsource {s s' : ColumnSource} (hs : s.Alike Eq s') : s = s' := by
    cases s
    cases s'
    rw [ColumnSource.mk.injEq]
    exact ⟨eq_of_rel id hs.schema, eq_of_rel id hs.table, eq_of_rel id hs.column, hs.objectKind⟩
  have hjson {j j' : JsonInfo} (hj : j.Alike Eq j') : j = j' := by
    cases j
    cases j'
    rw [JsonInfo.mk.injEq]
    exact ⟨hj.isArray, eq_of_rel id hj.rootName, hj.includeNulls, hj.isNested, hj.shapeUnknown⟩
  cases c
  cases c'
  rw [ResultColumn.mk.injEq]
  exact ⟨h.name, eq_of_rel id h.aliasName, eq_of_rel id h.aliasTable, eq_of_rel hsource h.source,
    h.sqlType, h.userType,
    h.isNullable, h.isAmbiguous, eq_of_rel eq_of_reference h.reference, h.aggregate,
    eq_of_rel hjson h.json, hchildren⟩

private theorem eq_of_column {c c' : ResultColumn} (hc : (sameNames ρ).Column c c') : c = c' := by
  induction c using ResultColumn.mentions.induct
    (motive_2 := fun cs => ∀ {cs'}, List.Forall₂ (sameNames ρ).Column cs cs' → cs = cs')
      generalizing c' with
  | case1 name aliasName aliasTable source sqlType userType isNullable isAmbiguous reference
      aggregate json children ih =>
    exact eq_of_flat hc.alike (ih hc.children)
  | case2 =>
    rename_i hcs
    cases hcs
    rfl
  | case3 c cs ihc ihcs =>
    rename_i hcs
    cases hcs with
    | cons hc hcs => rw [ihc hc, ihcs hcs]

private theorem eq_of_set {s s' : ResultSet} (hs : (sameNames ρ).Set s s') : s = s' := by
  have hcolumns := eq_of_forall₂ eq_of_column hs.columns
  obtain ⟨_, hjson, harray, hroot, hnulls, hsingle, hwildcard, hshape, hreference⟩ := hs
  cases s
  cases s'
  rw [ResultSet.mk.injEq]
  exact ⟨hcolumns, hjson, harray, eq_of_rel id hroot, hnulls, hsingle, hwildcard, hshape hcolumns,
    eq_of_rel eq_of_reference hreference⟩

private theorem eq_of_model {m m' : RoutineModel} (hm : (sameNames ρ).Model m m') : m = m' := by
  have hexecuted {e e' : ExecutedRoutine} (he : e.Alike Eq e') : e = e' := by
    cases e
    cases e'
    rw [ExecutedRoutine.mk.injEq]
    exact ⟨eq_of_rel id he.catalog, he.schema, he.name⟩
  cases m
  cases m'
  rw [RoutineModel.mk.injEq]
  exact ⟨eq_of_forall₂ eq_of_set hm.resultSets, eq_of_forall₂ hexecuted hm.executedRoutines,
    hm.parameterTypes⟩

end Results

section Contexts

private theorem source_refl (s : ColumnSource) : s.Alike Eq s :=
  ⟨rel_refl (fun _ => rfl) _, rel_refl (fun _ => rfl) _, rel_refl (fun _ => rfl) _, rfl⟩

private theorem reference_refl (r : Reference) : r.Alike Eq r :=
  ⟨rfl, rel_refl (fun _ => rfl) _, rel_refl (fun _ => rfl) _, rfl⟩

private theorem json_refl (j : JsonInfo) : j.Alike Eq j :=
  ⟨rfl, rel_refl (fun _ => rfl) _, rfl, rfl, rfl⟩

private theorem alike_refl (c : ResultColumn) : c.Alike Eq c :=
  ⟨rfl, rel_refl (fun _ => rfl) _, rel_refl (fun _ => rfl) _, rel_refl source_refl _, rfl,
    rfl, rfl, rfl, rel_refl reference_refl _, rfl, rel_refl json_refl _⟩

private theorem column_refl (c : ResultColumn) : (sameNames ρ).Column c c := by
  induction c using ResultColumn.mentions.induct
    (motive_2 := fun cs => List.Forall₂ (sameNames ρ).Column cs cs) with
  | case1 name aliasName aliasTable source sqlType userType isNullable isAmbiguous reference
      aggregate json children ih =>
    exact .intro (alike_refl _) trivial ih
  | case2 => exact .nil
  | case3 c cs ihc ihcs => exact .cons ihc ihcs

private theorem map_refl (m : ColumnMap) : (sameNames ρ).Map m m :=
  ⟨rfl, fun _ =>
    rel_refl (fun _ => ⟨rfl, rel_refl source_refl _, rfl, rfl, rfl, rel_refl reference_refl _,
      rel_refl json_refl _, trivial, List.forall₂_same.2 fun c _ => column_refl c⟩) _⟩

private theorem scope_refl (s : ResultShape.Scope) : (sameNames ρ).Scope s s := by
  refine ⟨rfl, List.forall₂_same.2 fun e _ =>
    ⟨rel_refl (fun _ => rfl) _, rel_refl (fun _ => rfl) _, rfl, rel_refl (fun _ => rfl) _, rfl,
      ?_, rfl⟩⟩
  cases e.columns with
  | pending n => exact .pending ⟨rel_refl (fun _ => rfl) _, rel_refl (fun _ => rfl) _, rfl⟩
  | unknown => exact .unknown
  | known m => exact .known (map_refl m)

/-- A context is alike to the one with other expressions in the definitions in sight. -/
theorem context_rewriteCtes (ρ : Rewriting) (c : ResultShape.Context) :
    (sameNames ρ).Context c (c.rewriteCtes ρ) where
  scopes := List.forall₂_same.2 fun s _ => scope_refl s
  bindings :=
    ⟨⟨rfl, fun _ => rel_refl (fun _ => ⟨rfl, trivial⟩) _⟩, ⟨rfl, fun _ => rel_refl map_refl _⟩⟩
  cteFrames :=
    forall₂_of_map _ (fun frame => forall₂_of_map _ (fun _ => ⟨rfl, fun _ _ => trivial⟩) frame) _
  cteCache := ⟨rfl, fun _ => rel_refl map_refl _⟩
  cteAnchors := ⟨rfl, fun _ => rel_refl map_refl _⟩
  ctesInProgress := rfl
  statement := rfl
  depth := rfl

end Contexts

end Likeness

variable {ρ : Rewriting} (hρ : ρ.Faithful)

include hρ

/-- A query with other expressions, under definitions with other expressions, comes to the same. -/
theorem Query.outcome_rewrite (env : Env) (k : Nat) (q : Query) (c : Context) :
    (((Nested.within k).query (q.rewrite ρ)).outcome env (c.rewriteCtes ρ)).1 =
      (((Nested.within k).query q).outcome env c).1 := by
  have hends := (Likeness.within (Likeness.lawful_sameNames hρ env) k q fun _ _ => trivial).1 _ _
    (Likeness.context_rewriteCtes ρ c)
  change Likeness.Ends _ _ _
    (((Nested.within k).query (q.rewrite ρ)).outcome env (c.rewriteCtes ρ)) at hends
  generalize ((Nested.within k).query q).outcome env c = p at hends
  generalize ((Nested.within k).query (q.rewrite ρ)).outcome env (c.rewriteCtes ρ) = p' at hends
  cases hends with
  | ok hs _ => rw [Likeness.eq_of_set hs]
  | error e => rfl

/-- A routine with other expressions has the same model. -/
theorem Routine.model_rewrite (hq : ρ.KeepsQueries) (catalog : Catalog) (config : Config)
    (r : Routine) : (r.rewrite ρ).model catalog config = r.model catalog config := by
  have hlawful :=
    Likeness.lawful_sameNames hρ ⟨catalog.withDefaultSchema config.defaultSchema, config⟩
  have hreports := Likeness.model_alike hlawful hq r fun _ _ => trivial
  change Likeness.Reports _ (r.model catalog config)
    ((r.rewrite ρ).model catalog config) at hreports
  generalize r.model catalog config = x at hreports
  generalize (r.rewrite ρ).model catalog config = y at hreports
  cases hreports with
  | ok hm => rw [Likeness.eq_of_model hm]
  | error e => rfl

end ResultShape
