import Mathlib.Data.List.Nodup
import Mathlib.Tactic.Tauto
import ResultShape.Proofs.ForJson.NestedShape
import ResultShape.Proofs.Text.Dotted
/-! Dotted names: the fields that path mode makes of columns are a forest in which
each column has its leaf at its name, and each container has the fields inside it at
paths that go on from its own. -/
namespace ResultShape

namespace JsonField

mutual

/-- A field and those inside it, a container before what it holds. -/
def nodes : JsonField → List JsonField
  | f@⟨_, _, _, children⟩ => f :: nodesOfAll children

def nodesOfAll : List JsonField → List JsonField
  | [] => []
  | f :: fs => f.nodes ++ nodesOfAll fs

end

/-- The fields, at any depth, that hold no others. -/
def leaves (fields : List JsonField) : List JsonField :=
  (nodesOfAll fields).filter (·.children.isEmpty)

mutual

/-- The nodes under a field, each with the names on the way to it. -/
def routes : JsonField → List (List String × JsonField)
  | f@⟨name, _, _, children⟩ =>
    ([name], f) :: (routesOfAll children).map fun p => (name :: p.1, p.2)

def routesOfAll : List JsonField → List (List String × JsonField)
  | [] => []
  | f :: fs => f.routes ++ routesOfAll fs

end

/-- The names on the way to each leaf. -/
def addresses (fields : List JsonField) : List (List String) :=
  ((routesOfAll fields).filter (·.2.children.isEmpty)).map Prod.fst

/-- Fields inside the one at a path: with names of their own, without dots, and
at paths that go on from it. -/
inductive Nested : String → List JsonField → Prop where
  | intro {outer : String} {fields : List JsonField} (nodup : (fields.map (·.name)).Nodup)
      (named : ∀ f ∈ fields, f.name ≠ "" ∧ '.' ∉ f.name.toList ∧ f.path = pathUnder outer f.name ∧
        f.isArray = false)
      (inside : ∀ f ∈ fields, Nested f.path f.children) : Nested outer fields

section Lists

theorem nodesOfAll_eq_flatMap (fields : List JsonField) :
    nodesOfAll fields = fields.flatMap nodes := by
  induction fields with
  | nil => rfl
  | cons f fs ih => rw [nodesOfAll, ih, List.flatMap_cons]

theorem routesOfAll_eq_flatMap (fields : List JsonField) :
    routesOfAll fields = fields.flatMap routes := by
  induction fields with
  | nil => rfl
  | cons f fs ih => rw [routesOfAll, ih, List.flatMap_cons]

private theorem nodes_eq (f : JsonField) : f.nodes = f :: nodesOfAll f.children := by cases f; rfl

private theorem routes_eq (f : JsonField) :
    f.routes = ([f.name], f) :: (routesOfAll f.children).map fun p =>
      (f.name :: p.1, p.2) := by cases f; rfl

private theorem addresses_append (fs gs : List JsonField) :
    addresses (fs ++ gs) = addresses fs ++ addresses gs := by
  simp [addresses, routesOfAll_eq_flatMap]

private theorem addresses_cons (f : JsonField) (fs : List JsonField) :
    addresses (f :: fs) = addresses [f] ++ addresses fs := addresses_append [f] fs

private theorem addresses_singleton (f : JsonField) :
    addresses [f] = if f.children.isEmpty then [[f.name]]
    else (addresses f.children).map (f.name :: ·) := by
  rw [addresses, routesOfAll_eq_flatMap, List.flatMap_singleton, routes_eq, List.filter_cons]
  dsimp only
  split
  · rename_i h
    rw [List.isEmpty_iff.1 h]
    rfl
  · simp [addresses, List.filter_map, Function.comp_def]

private theorem exists_address (f : JsonField) : ∃ rest, f.name :: rest ∈ addresses [f] := by
  match f with
  | ⟨name, _, _, []⟩ => exact ⟨[], List.mem_cons_self⟩
  | ⟨name, path, isArray, child :: children⟩ =>
    obtain ⟨rest, hrest⟩ := exists_address child
    refine ⟨child.name :: rest, ?_⟩
    rw [addresses_singleton, if_neg (by simp), addresses_cons]
    exact List.mem_map_of_mem (List.mem_append_left _ hrest)

private theorem mem_addresses {f : JsonField} {fs : List JsonField} (hf : f ∈ fs) {a : List String}
    (ha : a ∈ addresses [f]) : a ∈ addresses fs := by
  obtain ⟨pre, post, rfl⟩ := List.append_of_mem hf
  rw [addresses_append, addresses_cons]
  exact List.mem_append_right _ (List.mem_append_left _ ha)

end Lists

section Paths

/-- The path that names lead to from the one at the start. -/
def pathAlong (outer : String) (names : List String) : String := names.foldl pathUnder outer

theorem pathUnder_injective {outer a b : String}
    (h : pathUnder outer a = pathUnder outer b) : a = b := by
  unfold pathUnder at h
  split at h
  · exact h
  · have hlist := congrArg String.toList h
    simp only [String.toList_append, List.append_cancel_left_eq] at hlist
    exact String.toList_injective hlist

theorem toList_pathAlong {outer : String} (ho : outer ≠ "") (names : List String) :
    (pathAlong outer names).toList = Text.glue '.' (outer.toList :: names.map String.toList) := by
  induction names generalizing outer with
  | nil => rfl
  | cons n ns ih =>
    have hn : pathUnder outer n = outer ++ "." ++ n := if_neg (by simpa using ho)
    rw [pathAlong, List.foldl_cons, ← pathAlong, ih (pathUnder_ne_empty (.inl ho)), hn]
    cases ns with
    | nil => simp [Text.glue]
    | cons m ms => simp [Text.glue_cons_cons]

/-- The segments of a name lead to it. -/
theorem pathAlong_segments {s : String} (h : "" ∉ Text.segments s) :
    pathAlong "" (Text.segments s) = s := by
  have hglue := Text.glue_segments s
  cases hs : Text.segments s with
  | nil => simp [Text.segments, Text.split_ne_nil] at hs
  | cons head tail =>
    rw [hs] at h hglue
    have hhead : head ≠ "" := fun he => h (he ▸ List.mem_cons_self)
    apply String.toList_injective
    rw [pathAlong, List.foldl_cons, pathUnder_empty, ← pathAlong, toList_pathAlong hhead,
      ← List.map_cons, hglue]

/-- Names without dots can be told from the path that they lead to. -/
theorem segments_pathAlong {names : List String} (hne : names ≠ [])
    (h : ∀ n ∈ names, n ≠ "" ∧ '.' ∉ n.toList) :
    Text.segments (pathAlong "" names) = names := by
  cases names with
  | nil => exact absurd rfl hne
  | cons head tail =>
    have hhead : head ≠ "" := (h head List.mem_cons_self).1
    have hdot : ∀ p ∈ (head :: tail).map String.toList, '.' ∉ p := by
      intro p hp
      obtain ⟨n, hn, rfl⟩ := List.mem_map.1 hp
      exact (h n hn).2
    rw [Text.segments, pathAlong, List.foldl_cons, pathUnder_empty, ← pathAlong,
      toList_pathAlong hhead, ← List.map_cons, Text.split_glue (by simp) hdot, List.map_map]
    simp

end Paths

section Inserting

variable {outer : String} {fields : List JsonField}

private theorem Nested.empty (outer : String) : Nested outer [] := .intro .nil nofun nofun

private theorem updateFirst_of_split {p : JsonField → Bool} {g : JsonField → JsonField}
    {pre post : List JsonField} {f : JsonField} (hpre : ∀ x ∈ pre, p x = false) (hf : p f = true) :
    updateFirst p g (pre ++ f :: post) = pre ++ g f :: post := by
  induction pre with
  | nil => simp [updateFirst, hf]
  | cons x pre ih =>
    obtain ⟨hx, hpre⟩ := List.forall_mem_cons.1 hpre
    simp [updateFirst, hx, ih hpre]

private theorem Nested.append_leaf {name : String} (h : Nested outer fields)
    (hnew : name ∉ fields.map (·.name))
    (hname : name ≠ "" ∧ '.' ∉ name.toList) :
    Nested outer (fields ++ [leaf name (pathUnder outer name)]) := by
  obtain ⟨nodup, named, inside⟩ := h
  refine .intro ?_ (fun f hf => ?_) (fun f hf => ?_)
  · rw [List.map_append, List.nodup_append]
    refine ⟨nodup, by simp, ?_⟩
    rintro n hn _ hm rfl
    obtain rfl : n = name := List.mem_singleton.1 hm
    exact hnew hn
  · rcases List.mem_append.1 hf with hf | hf
    · exact named f hf
    · obtain rfl := List.mem_singleton.1 hf
      exact ⟨hname.1, hname.2, rfl, rfl⟩
  · rcases List.mem_append.1 hf with hf | hf
    · exact inside f hf
    · obtain rfl := List.mem_singleton.1 hf
      exact .empty _

/-- A container takes over new fields inside it, among which there is one leaf more. -/
private theorem Nested.withChildren {pre post children : List JsonField} {f : JsonField}
    {rest : List String} (h : Nested outer (pre ++ f :: post)) (hc : Nested f.path children)
    (ha : (addresses children).Perm (rest :: addresses f.children)) :
    Nested outer (pre ++ { f with children } :: post) ∧
      (addresses (pre ++ { f with children } :: post)).Perm
        ((f.name :: rest) ::
          (addresses pre ++ (addresses f.children).map (f.name :: ·) ++ addresses post)) := by
  obtain ⟨nodup, named, inside⟩ := h
  have hmem {g : JsonField} (hg : g ∈ pre ++ { f with children } :: post) :
      g = { f with children } ∨ g ∈ pre ++ f :: post := by
    simp only [List.mem_append, List.mem_cons] at hg ⊢
    tauto
  have hf : f ∈ pre ++ f :: post := by simp
  refine ⟨.intro (by simpa using nodup) (fun g hg => ?_) (fun g hg => ?_), ?_⟩
  · rcases hmem hg with rfl | hg
    · exact named f hf
    · exact named g hg
  · rcases hmem hg with rfl | hg
    · exact hc
    · exact inside g hg
  · have hcontainer : ¬({ f with children } : JsonField).children.isEmpty = true := by
      intro he
      have hnil : children = [] := List.isEmpty_iff.1 he
      rw [hnil] at ha
      exact List.cons_ne_nil _ _ (List.perm_nil.1 ha.symm)
    rw [addresses_append, addresses_cons, addresses_singleton, if_neg hcontainer]
    have hone : ((addresses children).map (f.name :: ·)).Perm
        ((f.name :: rest) :: (addresses f.children).map (f.name :: ·)) := ha.map _
    refine ((hone.append_right (addresses post)).append_left (addresses pre)).trans ?_
    rw [List.append_assoc]
    exact List.perm_middle

/-- Of fields with names of their own, only one has its path. -/
private theorem Nested.path_ne_of_split {pre post : List JsonField} {f : JsonField}
    (h : Nested outer (pre ++ f :: post)) :
    ∀ x ∈ pre, (x.path == f.path) = false := by
  obtain ⟨nodup, named, -⟩ := h
  rw [List.map_append, List.map_cons, List.nodup_append] at nodup
  intro x hx
  rw [beq_eq_false_iff_ne, (named x (List.mem_append_left _ hx)).2.2.1, (named f (by simp)).2.2.1]
  intro he
  exact nodup.2.2 _ (List.mem_map_of_mem hx) _ List.mem_cons_self (pathUnder_injective he)

/-- A field is a container if names that go on from its own neither begin with an address nor
begin one, since a leaf would have an address that they begin with. Inside the field, the
remaining names are free in the same way. -/
private theorem addresses_of_free {f : JsonField} {rest : List String}
    (hfree : ∀ a ∈ addresses [f], ¬a <+: f.name :: rest ∧ ¬f.name :: rest <+: a) :
    addresses [f] = (addresses f.children).map (f.name :: ·) ∧
      ∀ a ∈ addresses f.children, ¬a <+: rest ∧ ¬rest <+: a := by
  have hcontainer : ¬f.children.isEmpty = true := by
    intro hleaf
    have hmem : [f.name] ∈ addresses [f] := by
      rw [addresses_singleton, if_pos hleaf]
      exact List.mem_singleton_self _
    exact (hfree _ hmem).1 ⟨rest, rfl⟩
  have hin : addresses [f] = (addresses f.children).map (f.name :: ·) := by
    rw [addresses_singleton, if_neg hcontainer]
  refine ⟨hin, fun a ha => ?_⟩
  have hfree := hfree _ (hin ▸ List.mem_map_of_mem ha)
  rwa [List.cons_prefix_cons, List.cons_prefix_cons, and_iff_right rfl, and_iff_right rfl] at hfree

/-- A leaf is put into a forest at names that no address begins with and that begin with no address:
the forest stays one, and has one leaf more. -/
private theorem Nested.insertAt {segments : List String} (h : Nested outer fields)
    (hne : segments ≠ []) (hs : ∀ n ∈ segments, n ≠ "" ∧ '.' ∉ n.toList)
    (hfree : ∀ a ∈ addresses fields, ¬a <+: segments ∧ ¬segments <+: a) :
    Nested outer (JsonField.insertAt leaf segments outer fields) ∧
      (addresses (JsonField.insertAt leaf segments outer fields)).Perm
        (segments :: addresses fields) := by
  induction segments, outer, fields using insertAt.induct with
  | case1 outer fields => exact absurd rfl hne
  | case2 name outer fields =>
    have hnew : name ∉ fields.map (·.name) := by
      intro hname
      obtain ⟨f, hf, rfl⟩ := List.mem_map.1 hname
      obtain ⟨rest, hrest⟩ := exists_address f
      exact (hfree _ (mem_addresses hf hrest)).2 ⟨rest, rfl⟩
    rw [JsonField.insertAt, addresses_append]
    exact ⟨h.append_leaf hnew (hs name List.mem_cons_self), List.perm_append_comm⟩
  | case3 name rest outer fields hrest path ih =>
    obtain ⟨hname, hsrest⟩ := List.forall_mem_cons.1 hs
    obtain ⟨-, named, inside⟩ := id h
    rw [insertAt_cons hrest]
    by_cases hany : fields.any (·.path == pathUnder outer name) = true
    · obtain ⟨f, hf, hpath⟩ := List.any_eq_true.1 hany
      have hpath : f.path = pathUnder outer name := eq_of_beq hpath
      obtain rfl : f.name = name := pathUnder_injective ((named f hf).2.2.1.symm.trans hpath)
      obtain ⟨hin, hbelow⟩ := addresses_of_free fun a ha => hfree a (mem_addresses hf ha)
      have hinside : Nested (pathUnder outer f.name) f.children := hpath ▸ inside f hf
      obtain ⟨hnested, haddresses⟩ := ih f hinside hrest hsrest hbelow
      obtain ⟨pre, post, rfl⟩ := List.append_of_mem hf
      have hpre : ∀ x ∈ pre, (x.path == pathUnder outer f.name) = false :=
        hpath ▸ h.path_ne_of_split
      obtain ⟨hnested, haddresses⟩ := h.withChildren (hpath.symm ▸ hnested) haddresses
      rw [if_pos hany, updateFirst_of_split hpre (beq_iff_eq.2 hpath)]
      refine ⟨hnested, haddresses.trans ?_⟩
      rw [addresses_append, addresses_cons, hin, List.append_assoc]
    · have hnew : name ∉ fields.map (·.name) := by
        intro hmem
        obtain ⟨f, hf, rfl⟩ := List.mem_map.1 hmem
        exact hany (List.any_eq_true.2 ⟨f, hf, beq_iff_eq.2 (named f hf).2.2.1⟩)
      have hpre : ∀ x ∈ fields, (x.path == pathUnder outer name) = false := by
        intro x hx
        by_contra he
        exact hany (List.any_eq_true.2 ⟨x, hx, by simpa using he⟩)
      obtain ⟨hnested, haddresses⟩ :=
        ih (leaf name (pathUnder outer name)) (.empty _) hrest hsrest (List.forall_mem_nil _)
      obtain ⟨hnested, haddresses⟩ := (h.append_leaf hnew hname).withChildren hnested haddresses
      rw [if_neg hany, updateFirst_of_split hpre (beq_self_eq_true _)]
      refine ⟨hnested, haddresses.trans ?_⟩
      simp [leaf, addresses, routesOfAll]

end Inserting

section Reading

variable {outer : String} {fields : List JsonField}

private theorem mem_routesOfAll {a : List String} {f : JsonField} :
    (a, f) ∈ routesOfAll fields ↔
      ∃ g ∈ fields, (a = [g.name] ∧ f = g) ∨ ∃ b, a = g.name :: b ∧
        (b, f) ∈ routesOfAll g.children := by
  rw [routesOfAll_eq_flatMap, List.mem_flatMap]
  refine exists_congr fun g => and_congr_right fun _ => ?_
  rw [routes_eq, List.mem_cons, List.mem_map, Prod.mk.injEq]
  refine or_congr_right ⟨?_, ?_⟩
  · rintro ⟨⟨b, f⟩, hb, he⟩
    cases he
    exact ⟨b, rfl, hb⟩
  · rintro ⟨b, rfl, hb⟩
    exact ⟨(b, f), hb, rfl⟩

/-- The names on the way to a field lead to its path, and the last one is its own. -/
private theorem Nested.of_mem_routes (h : Nested outer fields) {a : List String} {f : JsonField}
    (hf : (a, f) ∈ routesOfAll fields) :
    a ≠ [] ∧ (∀ n ∈ a, n ≠ "" ∧ '.' ∉ n.toList) ∧ f.path = pathAlong outer a ∧
    f.name = a.getLastD "" ∧
      f.isArray = false ∧ f.path ≠ "" ∧ Nested f.path f.children := by
  induction h generalizing a with
  | @intro outer fields nodup named inside ih =>
    obtain ⟨g, hg, ⟨rfl, rfl⟩ | ⟨b, rfl, hb⟩⟩ := mem_routesOfAll.1 hf
    · obtain ⟨hname, hdot, hpath, harray⟩ := named f hg
      refine ⟨List.cons_ne_nil _ _, by simpa using
        ⟨hname, hdot⟩, hpath, rfl, harray, ?_, inside f hg⟩
      rw [hpath]
      exact pathUnder_ne_empty (.inr hname)
    · obtain ⟨hname, hdot, hpath, -⟩ := named g hg
      obtain ⟨hne, hnames, hfpath, hlast, hrest⟩ := ih g hg hb
      refine ⟨List.cons_ne_nil _ _, List.forall_mem_cons.2 ⟨⟨hname, hdot⟩, hnames⟩, ?_, ?_, hrest⟩
      · rw [hfpath, hpath]
        rfl
      · cases b with
        | nil => exact absurd rfl hne
        | cons n ns => exact hlast

private theorem Nested.nodesOfAll_eq (h : Nested outer fields) :
    nodesOfAll fields = (routesOfAll fields).map Prod.snd := by
  induction h with
  | @intro outer fields nodup named inside ih =>
    rw [nodesOfAll_eq_flatMap, routesOfAll_eq_flatMap, List.map_flatMap]
    refine List.flatMap_congr fun f hf => ?_
    rw [nodes_eq, routes_eq, ih f hf, List.map_cons, List.map_map]
    rfl

/-- No two fields are found along the same names. -/
private theorem Nested.nodup_routes (h : Nested outer fields) :
    ((routesOfAll fields).map Prod.fst).Nodup := by
  induction h with
  | @intro outer fields nodup named inside ih =>
    rw [routesOfAll_eq_flatMap, List.map_flatMap, List.nodup_flatMap]
    constructor
    · intro f hf
      rw [routes_eq, List.map_cons, List.map_map, List.nodup_cons]
      constructor
      · intro hmem
        obtain ⟨⟨b, g⟩, hb, he⟩ := List.mem_map.1 hmem
        exact ((inside f hf).of_mem_routes hb).1 (List.cons.inj he).2
      · have hcons := (ih f hf).map (List.cons_injective (a := f.name))
        rwa [List.map_map] at hcons
    · refine (List.pairwise_map.1 nodup).imp fun {f g} hne => ?_
      have hhead {f : JsonField} {a : List String} (ha : a ∈ f.routes.map Prod.fst) :
          a.head? = some f.name := by
        rw [routes_eq, List.map_cons, List.map_map, List.mem_cons, List.mem_map] at ha
        rcases ha with rfl | ⟨p, -, rfl⟩ <;> rfl
      refine List.disjoint_left.2 fun a ha hb => ?_
      exact hne (Option.some.inj ((hhead ha).symm.trans (hhead hb)))

private theorem Nested.nodup_paths (h : Nested "" fields) :
    ((nodesOfAll fields).map (·.path)).Nodup := by
  have hpaths : (nodesOfAll fields).map (·.path) =
      ((routesOfAll fields).map Prod.fst).map (pathAlong "") := by
    rw [h.nodesOfAll_eq, List.map_map, List.map_map]
    exact List.map_congr_left fun p hp => (h.of_mem_routes hp).2.2.1
  rw [hpaths]
  refine h.nodup_routes.map_on fun a ha b hb he => ?_
  obtain ⟨⟨a, f⟩, hf, rfl⟩ := List.mem_map.1 ha
  obtain ⟨⟨b, g⟩, hg, rfl⟩ := List.mem_map.1 hb
  obtain ⟨hne, hnames, -⟩ := h.of_mem_routes hf
  obtain ⟨hne', hnames', -⟩ := h.of_mem_routes hg
  rw [← segments_pathAlong hne hnames, he, segments_pathAlong hne' hnames']

private theorem find?_eq (wanted : String) (f : JsonField) :
    f.find? wanted = f.nodes.find? (·.path = wanted) := by
  induction f using
    nodes.induct (motive_2 := fun fs =>
      findIn? wanted fs = (nodesOfAll fs).find? (·.path = wanted)) with
  | case1 name path isArray children ih =>
    rw [find?, nodes, List.find?_cons]
    split
    · rename_i h
      simp [h]
    · rename_i h
      simp [h, ih]
  | case2 => rfl
  | case3 f fs ih ihs => rw [findIn?, nodesOfAll, List.find?_append, ih, ihs]

private theorem findIn?_eq (wanted : String) (fields : List JsonField) :
    findIn? wanted fields = (nodesOfAll fields).find? (·.path = wanted) := by
  induction fields with
  | nil => rfl
  | cons f fs ih => rw [findIn?, nodesOfAll, List.find?_append, find?_eq, ih]

/-- Each field of a document is found by its path. -/
private theorem Nested.findIn?_path (h : Nested "" fields) {f : JsonField}
    (hf : f ∈ nodesOfAll fields) :
    findIn? f.path fields = some f := by
  rw [findIn?_eq]
  cases hfind : (nodesOfAll fields).find? (·.path = f.path) with
  | none =>
    have hnone := List.find?_eq_none.1 hfind f hf
    simp at hnone
  | some g =>
    have hpath : g.path = f.path := by simpa using List.find?_some hfind
    rw [List.inj_on_of_nodup_map h.nodup_paths (List.mem_of_find?_eq_some hfind) hf hpath]

private theorem Nested.leaves_eq (h : Nested outer fields) :
    leaves fields = (addresses fields).map fun a => leaf (a.getLastD "") (pathAlong outer a) := by
  rw [leaves, h.nodesOfAll_eq, List.filter_map, addresses, List.map_map]
  refine List.map_congr_left fun ⟨a, f⟩ hf => ?_
  obtain ⟨hf, hleaf⟩ := List.mem_filter.1 hf
  obtain ⟨-, -, hpath, hname, harray, -⟩ := h.of_mem_routes hf
  obtain ⟨name, path, isArray, children⟩ := f
  obtain rfl : children = [] := List.isEmpty_iff.1 hleaf
  cases hpath
  cases hname
  cases harray
  rfl

/-- Fields inside a field have names of their own, and paths that go on from its path. -/
private theorem Nested.children (h : Nested outer fields) {f : JsonField}
    (hf : f ∈ nodesOfAll fields) :
    (f.children.map (·.name)).Nodup ∧ ∀ g ∈ f.children, g.path = f.path ++ "." ++ g.name := by
  rw [h.nodesOfAll_eq] at hf
  obtain ⟨⟨a, f⟩, hroute, rfl⟩ := List.mem_map.1 hf
  obtain ⟨-, -, -, -, -, hpath, hinside⟩ := h.of_mem_routes hroute
  obtain ⟨nodup, named, -⟩ := hinside
  refine ⟨nodup, fun g hg => ?_⟩
  rw [(named g hg).2.2.1, pathUnder, if_neg (by simpa using hpath)]

end Reading

end JsonField

namespace ResultColumn

open JsonField

private theorem fieldAt_eq_leaf {c : ResultColumn} (h : c.json = none) : c.fieldAt = leaf := by
  obtain ⟨_, _, _, _, _, _, _, _, _, _, json, children⟩ := c
  cases h
  rfl

/-- Columns without documents add one leaf each. -/
private theorem nested_fieldsInto {cs : List ResultColumn} {fields : List JsonField}
    (h : Nested "" fields)
    (hjson : ∀ c ∈ cs, c.json = none) (hsegments : ∀ c ∈ cs, "" ∉ Text.segments c.name)
    (hfree : cs.Pairwise fun c d => ¬Text.IsDottedPrefix c.name d.name ∧
      ¬Text.IsDottedPrefix d.name c.name)
    (hfields : ∀ c ∈ cs, ∀ a ∈ addresses fields, ¬a <+: Text.segments c.name ∧
      ¬Text.segments c.name <+: a) :
    Nested "" (fieldsInto .path "" cs fields) ∧
      (addresses (fieldsInto .path "" cs fields)).Perm
        (cs.map (Text.segments ·.name) ++ addresses fields) := by
  induction cs generalizing fields with
  | nil => exact ⟨h, List.Perm.refl _⟩
  | cons c cs ih =>
    obtain ⟨hc, hcs⟩ := List.forall_mem_cons.1 hjson
    obtain ⟨hs, hss⟩ := List.forall_mem_cons.1 hsegments
    obtain ⟨hf, hfs⟩ := List.forall_mem_cons.1 hfields
    obtain ⟨hothers, hfree⟩ := List.pairwise_cons.1 hfree
    have hne : Text.segments c.name ≠ [] := by simp [Text.segments, Text.split_ne_nil]
    obtain ⟨hnested, haddresses⟩ := h.insertAt hne
      (fun n hn => ⟨fun he => hs (he ▸ hn), Text.dot_not_mem_of_mem_segments hn⟩) hf
    rw [fieldsInto, fieldAt_eq_leaf hc, fieldSegments]
    obtain ⟨hnested, hall⟩ := ih hnested hcs hss hfree (by
      intro d hd a ha
      rcases List.mem_cons.1 (haddresses.subset ha) with rfl | ha
      · exact hothers d hd
      · exact hfs d hd a ha)
    refine ⟨hnested, hall.trans ?_⟩
    rw [List.map_cons, List.cons_append]
    exact (haddresses.append_left _).trans List.perm_middle

/-- Columns without documents, of which no name has an empty segment and none is another one
or a dotted prefix of it, have one leaf each, at the name of the column and found there; all
other fields have fields inside them. What is inside a field has names of its own, and paths
that go on from that of the field. -/
theorem dotted_fields {cs : List ResultColumn} (hjson : ∀ c ∈ cs, c.json = none)
    (hsegments : ∀ c ∈ cs, "" ∉ Text.segments c.name)
    (hfree : cs.Pairwise fun c d => ¬Text.IsDottedPrefix c.name d.name ∧
      ¬Text.IsDottedPrefix d.name c.name) :
    let fields := jsonFields .path "" cs
    (leaves fields).Perm (cs.map fun c => leaf ((Text.segments c.name).getLastD "") c.name) ∧
      (∀ c ∈ cs, findIn? c.name fields = some (leaf ((Text.segments c.name).getLastD "") c.name)) ∧
      ((fields.map (·.name)).Nodup ∧ ∀ f ∈ fields, f.path = f.name) ∧
      ∀ f ∈ nodesOfAll fields, (f.children.map (·.name)).Nodup ∧
        ∀ g ∈ f.children, g.path = f.path ++ "." ++ g.name := by
  intro fields
  obtain ⟨hnested, haddresses⟩ := nested_fieldsInto (.empty "") hjson hsegments hfree nofun
  have hleaves :
      (leaves fields).Perm (cs.map fun c => leaf ((Text.segments c.name).getLastD "") c.name) := by
    have hnames : cs.map (fun c => leaf ((Text.segments c.name).getLastD "") c.name) =
        (cs.map (Text.segments ·.name)).map fun a => leaf (a.getLastD "") (pathAlong "" a) := by
      rw [List.map_map]
      exact List.map_congr_left fun c hc =>
        congrArg (leaf _) (pathAlong_segments (hsegments c hc)).symm
    have hempty : addresses [] = [] := rfl
    rw [hempty, List.append_nil] at haddresses
    have hfields : leaves fields = (addresses fields).map fun a =>
        leaf (a.getLastD "") (pathAlong "" a) :=
      hnested.leaves_eq
    rw [hnames, hfields]
    exact haddresses.map _
  refine ⟨hleaves, fun c hc => ?_, ?_, fun f hf => hnested.children hf⟩
  · have hmem : leaf ((Text.segments c.name).getLastD "") c.name ∈ leaves fields :=
      hleaves.symm.subset (List.mem_map_of_mem hc)
    exact hnested.findIn?_path (List.mem_filter.1 hmem).1
  · obtain ⟨nodup, named, -⟩ := hnested
    exact ⟨nodup, fun f hf => (named f hf).2.2.1⟩

/-- Two objects whose columns are scattered, and one inside another. -/
theorem dotted_fields_scattered :
    let cs :=
      ["Customer.Id", "Id", "Total.Net", "Customer.Name.First", "Total.Tax",
        "Customer.Name.Last"].map named
    (∀ c ∈ cs, c.json = none) ∧ (∀ c ∈ cs, "" ∉ Text.segments c.name) ∧
      (cs.Pairwise fun c d => ¬Text.IsDottedPrefix c.name d.name ∧
        ¬Text.IsDottedPrefix d.name c.name) ∧
      (leaves (jsonFields .path "" cs)).length = 6 ∧
      findIn? "Customer.Name.Last" (jsonFields .path "" cs) =
        some (leaf "Last" "Customer.Name.Last") := by
  intro cs
  have hjson : ∀ c ∈ cs, c.json = none := by
    rw [List.forall_mem_map]
    exact fun _ _ => rfl
  have hsegments : ∀ c ∈ cs, "" ∉ Text.segments c.name := by
    rw [List.forall_mem_map]
    decide
  have hfree : cs.Pairwise fun c d => ¬Text.IsDottedPrefix c.name d.name ∧
      ¬Text.IsDottedPrefix d.name c.name := by
    rw [List.pairwise_map]
    decide
  obtain ⟨hleaves, hfind, -⟩ := dotted_fields hjson hsegments hfree
  refine ⟨hjson, hsegments, hfree, hleaves.length_eq, ?_⟩
  exact hfind (named "Customer.Name.Last") (List.mem_map_of_mem (by decide))

end ResultColumn

end ResultShape
