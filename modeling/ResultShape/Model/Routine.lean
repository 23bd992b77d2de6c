import ResultShape.Model.ResultSet
/-! Routine models: all that is inferred about one routine. -/
namespace ResultShape

structure RoutineModel where
  resultSets : List ResultSet := []
  executedRoutines : List ExecutedRoutine := []
  /-- The user-defined types of parameters and declared variables. -/
  parameterTypes : List Reference := []
  deriving Inhabited

namespace RoutineModel

mutual

/-- The paths of a column and of those inside it that carry only a name. -/
def unresolvedUnder (trail : String) : ResultColumn → List String
  | c@⟨name, _, _, _, _, _, _, _, _, _, _, children⟩ =>
    let path := trail ++ "/" ++ name
    let deeper := unresolvedAmong (path ++ "/Columns") children
    if c.isUnresolved then path :: deeper else deeper

def unresolvedAmong (trail : String) : List ResultColumn → List String
  | [] => []
  | c :: cs => unresolvedUnder trail c ++ unresolvedAmong trail cs

end

/-- The paths of all columns that carry only a name, each container before what it holds. -/
def unresolvedColumns (m : RoutineModel) : List String :=
  m.resultSets.zipIdx.flatMap fun (set, index) =>
    unresolvedAmong ("ResultSets/" ++ toString index ++ "/Columns") set.columns

end RoutineModel

end ResultShape
