import ResultShape.Proofs.Alike.Column
/-! Alike names: columns that are alike are still so after naming. -/
namespace ResultShape.Likeness

open ResultColumn

variable {L : Likeness} {env : Env} {c c' : ResultColumn} {cs cs' : List ResultColumn}

private theorem nonempty_alike (h : L.Lawful env) {s s' : String} (hs : L.same s s') :
    Option.Rel L.same (nonempty s) (nonempty s') := by
  unfold nonempty
  rw [Text.isEmpty_eq (h.fold_eq hs)]
  split
  · exact .none
  · exact .some hs

private theorem referenceName_alike (hc : L.Column c c') :
    Option.Rel L.same (c.reference.map (·.name)) (c'.reference.map (·.name)) :=
  rel_map hc.alike.reference fun _ _ hr => hr.name

variable (h : L.Lawful env)

include h

private theorem candidate_alike (hc : L.Column c c') (position : Nat) :
    L.same (c.candidate position) (c'.candidate position) := by
  have hsource : Option.Rel L.same c.sourceColumn c'.sourceColumn :=
    rel_bind hc.alike.source fun _ _ hs => hs.column
  have hnames : List.Forall₂ (Option.Rel L.same)
      [c.aliasName, some c.name, c.sourceColumn, c.aliasTable, c.reference.map (·.name)]
      [c'.aliasName, some c'.name, c'.sourceColumn, c'.aliasTable, c'.reference.map (·.name)] :=
    .cons hc.alike.aliasName (.cons (.some hc.alike.name) (.cons hsource (.cons hc.alike.aliasTable
      (.cons (referenceName_alike hc) .nil))))
  exact rel_getD
    (rel_findSome? hnames fun _ _ ho => rel_bind ho fun _ _ hs => nonempty_alike h hs) (h.refl _)

private theorem isFree_eq (used : List String) {name name' : String} (hn : L.same name name') :
    isFree used name = isFree used name' := by rw [isFree, isFree, h.fold_eq hn]

private theorem numbered_alike (used : List String) {base base' : String} (hb : L.same base base') :
    L.same (numbered used base) (numbered used base') := by
  have hnames :
      List.Forall₂ L.same ((List.range (used.length + 1)).map fun i => base ++ toString (i + 2))
      ((List.range (used.length + 1)).map fun i => base' ++ toString (i + 2)) :=
    forall₂_map_map fun i _ => h.append hb (h.refl _)
  exact rel_getD (rel_find? hnames fun _ _ hn => isFree_eq h used hn) hb

private theorem freeName_alike (used : List String) (hc : L.Column c c') {base base' : String}
    (hb : L.same base base') : L.same (c.freeName used base) (c'.freeName used base') := by
  have hsource : Option.Rel L.same c.sourceTable c'.sourceTable :=
    rel_bind hc.alike.source fun _ _ hs => hs.table
  have hbehind :
      List.Forall₂ L.same ([c.sourceTable, c.aliasTable, c.reference.map (·.name)].filterMap id)
      ([c'.sourceTable, c'.aliasTable, c'.reference.map (·.name)].filterMap id) :=
    List.rel_filterMap (R := Option.Rel L.same) (fun _ _ ho => ho)
      (.cons hsource (.cons hc.alike.aliasTable (.cons (referenceName_alike hc) .nil)))
  have hnames : List.Forall₂ L.same
      (([c.sourceTable, c.aliasTable, c.reference.map (·.name)].filterMap id).map
        (· ++ "_" ++ base))
      (([c'.sourceTable, c'.aliasTable, c'.reference.map (·.name)].filterMap id).map
        (· ++ "_" ++ base')) :=
    List.rel_map (fun _ _ hs => h.append (h.append hs (h.refl _)) hb) hbehind
  unfold freeName
  rw [isFree_eq h used hb]
  split
  · exact hb
  · exact rel_getD (rel_find? hnames fun _ _ hn => isFree_eq h used hn) (numbered_alike h used hb)

theorem assignNames (hcs : List.Forall₂ L.Column cs cs') :
    List.Forall₂ L.Column (ResultColumn.assignNames cs) (ResultColumn.assignNames cs') := by
  have hall (position : Nat) (used : List String) :
      List.Forall₂ L.Column (assignFrom position used cs) (assignFrom position used cs') := by
    induction hcs generalizing position used with
    | nil => exact .nil
    | cons hc _ ih =>
      have hname := freeName_alike h used hc (candidate_alike h hc position)
      rw [assignFrom, assignFrom, h.fold_eq hname]
      exact .cons (hc.renamed hname) (ih _ _)
  exact hall 0 []

end ResultShape.Likeness
