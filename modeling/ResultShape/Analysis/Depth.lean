import ResultShape.Analysis.Error
/-! Depth: how many queries are open inside one another, against a limit. -/
namespace ResultShape

structure Depth where
  limit : Nat
  opened : Nat := 0
  deriving DecidableEq, Repr

namespace Depth

/-- Opens one more query, if the limit allows it. -/
def enter (d : Depth) : Except AnalysisError Depth :=
  if d.opened < d.limit then .ok { d with opened := d.opened + 1 }
  else .error (.nestingTooDeep d.limit)

def leave (d : Depth) : Depth := { d with opened := d.opened - 1 }

end Depth

end ResultShape
