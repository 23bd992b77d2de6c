import ResultShape.Proofs.Alike.Model
/-! Ambiguous columns: where their types come from, if they have any. -/
namespace ResultShape

namespace Construct

def isCast : Construct → Bool
  | .cast _ => true
  | _ => false

/-- A column comes out of the construct with another type than it went in with. -/
def retypes : Construct → Bool
  | .cast _ | .merge | .jsonQuery => true
  | .dataType _ | .nullif | .setOp => false

/-- A column comes out of the construct with a nullability of its own. -/
def setsNullability : Construct → Bool
  | .cast kind => kind.isTry
  | .merge | .nullif | .jsonQuery | .setOp => true
  | .dataType _ => false

end Construct

namespace Routine

/-- What may be known of an ambiguous column of a routine. -/
structure AmbiguousFacts (r : Routine) (f : ValueFacts) : Prop where
  source : f.source = none
  userType : f.userType ≠ none → ∃ k ∈ r.constructs, k.isCast
  sqlType : f.sqlType ≠ none → ∃ k ∈ r.constructs, k.retypes
  isNullable : f.isNullable ≠ none → ∃ k ∈ r.constructs, k.setsNullability

/-- Each construct that gives an ambiguous column a fact is a reason for the column to have it. -/
private theorem kept_ambiguousFacts (r : Routine) (env : Env) :
    ValueFacts.Kept env (· ∈ r.constructs)
      (fun f => f.isAmbiguous = true → r.AmbiguousFacts f) where
  untyped hnot _ ha := by
    rw [hnot] at ha
    cases ha
  ambiguous _ := ⟨rfl, fun h => absurd rfl h, fun h => absurd rfl h, fun h => absurd rfl h⟩
  written _ := nofun
  stored _ := nofun
  copied _ _ _ := nofun
  cast {kind t f} hk _ h ha := by
    refine ⟨(h ha).source, fun _ => ⟨_, hk, rfl⟩, fun _ => ⟨_, hk, rfl⟩, fun hn => ?_⟩
    by_cases htry : kind.isTry
    · exact ⟨_, hk, htry⟩
    · dsimp only at hn
      rw [if_neg htry] at hn
      exact (h ha).isNullable hn
  merged {f} hk h sqlType isNullable ha := by
    refine ⟨(h ha).source, fun hu => (h ha).userType ?_, fun _ => ⟨_, hk, rfl⟩,
      fun _ => ⟨_, hk, rfl⟩⟩
    dsimp only at hu
    split at hu
    · exact hu
    · exact absurd rfl hu
  nullif hk h ha := ⟨(h ha).source, (h ha).userType, (h ha).sqlType, fun _ => ⟨_, hk, rfl⟩⟩
  jsonFragment hk h ha :=
    ⟨(h ha).source, fun hu => absurd rfl hu, fun _ => ⟨_, hk, rfl⟩, fun _ => ⟨_, hk, rfl⟩⟩
  widened hk h isNullable ha :=
    ⟨(h ha).source, (h ha).userType, (h ha).sqlType, fun _ => ⟨_, hk, rfl⟩⟩

/-- An ambiguous column, at any depth, has no source. It has a type only if the routine casts,
merges or takes JSON fragments, and it has a nullability only if one of these, a `NULLIF` or a set
operation is in the routine. -/
theorem ambiguousFacts_of_model_eq_ok {catalog : Catalog} {config : Config} {r : Routine}
    {m : RoutineModel}
    (h : r.model catalog config = .ok m) {c : ResultColumn} (hc : m.HasColumn c)
    (ha : c.isAmbiguous = true) :
    r.AmbiguousFacts c.facts :=
  (kept_ambiguousFacts r _).model (fun _ hk => hk) h hc ha

namespace SelectId

/-- `SELECT value FROM (SELECT 1 AS Id) AS a, (SELECT 2 AS Id) AS b`, for a
value that may read `Id`. -/
def routine (value : Expr) : Routine :=
  let one (id : Int) (aliasName : String) : Source :=
    .derived ⟨.select ⟨false, none, [.expr (.literal (.int id)) (some "Id")], none, [], none, [],
      none⟩, [], [], none, none⟩
      aliasName []
  let block : Select :=
    ⟨false, none, [.expr value none], none, [one 1 "a", one 2 "b"], none, [], none⟩
  ⟨.procedure, .bare "p", [], [.action (.select ⟨.select block, [], [], none, none⟩)], none, none⟩

def id : Expr := .column ⟨none, none, "Id"⟩

end SelectId

open SelectId in
theorem ambiguousFacts_of_cast_column :
    let r := routine (.cast .tryCast id (.bare "int"))
    let c : ResultColumn :=
      { name := "Id", sqlType := some (.builtin "int" none none none), isNullable := some true,
        isAmbiguous := true }
    let m : RoutineModel := { resultSets := [{ columns := [c] }] }
    r.model (.builtinOnly {}) {} = .ok m ∧ m.HasColumn c ∧ r.AmbiguousFacts c.facts := by
  intro r c m
  have hm : r.model (.builtinOnly {}) {} = .ok m := by rfl
  have hc : m.HasColumn c := ⟨_, .head _, _, .head _, .self⟩
  exact ⟨hm, hc, ambiguousFacts_of_model_eq_ok hm hc rfl⟩

open SelectId in
/-- The type that `ISNULL` merges goes to the column that was read first, which
is still marked as ambiguous. -/
theorem ambiguous_column_typed :
    let c : ResultColumn :=
      { name := "Id", sqlType := some (.builtin "int" none none none), isNullable := some false,
        isAmbiguous := true }
    let m : RoutineModel := { resultSets := [{ columns := [c] }] }
    (routine (.call (.bare "ISNULL") [id, .literal (.int 0)] false false)).model
        (.builtinOnly {}) {} = .ok m ∧
      m.HasColumn c := by
  intro c m
  exact ⟨by rfl, _, .head _, _, .head _, .self⟩

end Routine

end ResultShape
