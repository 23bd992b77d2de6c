import ResultShape.Model.Routine
/-! Dependencies: the objects that a routine model mentions, each once. -/
namespace ResultShape

/-- The first of the references with one identity each, in order. -/
def Reference.distinct : List Reference.Identity → List Reference → List Reference
  | _, [] => []
  | seen, r :: rs =>
    if seen.contains r.identity then distinct seen rs else r :: distinct (r.identity :: seen) rs

/-- The object of the catalog that a value is read from. -/
def ColumnSource.object? (s : ColumnSource) : Option Reference := do
  return ⟨← s.objectKind, none, s.schema, ← s.table⟩

namespace ResultColumn

/-- The objects that a column mentions by itself. -/
def ownMentions (c : ResultColumn) : List Reference :=
  c.reference.toList ++ (c.source.bind ColumnSource.object?).toList ++
    (c.userType.map (Reference.ofName .userDefinedType)).toList

mutual

/-- The objects that a column and those inside it mention, a container before what it holds. -/
def mentions : ResultColumn → List Reference
  | c@⟨_, _, _, _, _, _, _, _, _, _, _, children⟩ => c.ownMentions ++ mentionsOfAll children

def mentionsOfAll : List ResultColumn → List Reference
  | [] => []
  | c :: cs => mentions c ++ mentionsOfAll cs

end

end ResultColumn

namespace RoutineModel

/-- All mentions: result sets with their columns, executed routines, then types of parameters. -/
def mentions (m : RoutineModel) : List Reference :=
  m.resultSets.flatMap (fun set =>
    set.reference.toList ++ ResultColumn.mentionsOfAll set.columns) ++
    m.executedRoutines.map ExecutedRoutine.reference ++ m.parameterTypes

/-- Each object once, as it is first mentioned. -/
def dependencies (m : RoutineModel) : List Reference := Reference.distinct [] m.mentions

end RoutineModel

end ResultShape
