/-! What can end the analysis of a routine. -/
namespace ResultShape

/-- Ambiguous names, unknown objects and unreadable options are no errors and never show up here. -/
inductive AnalysisError where
  /-- More queries are open inside one another than the limit allows. -/
  | nestingTooDeep (limit : Nat)
  | internal (message : String)
  deriving DecidableEq, Repr

def AnalysisError.message : AnalysisError → String
  | .nestingTooDeep limit => "query nesting exceeds " ++ toString limit ++ " levels"
  | .internal message => "internal analyzer error: " ++ message

end ResultShape
