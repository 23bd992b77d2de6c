/-! Settings of an analysis. -/
namespace ResultShape

/-- What every analysis of a run goes by. -/
structure Config where
  /-- The schema of tables, functions, procedures and types that are named without one. -/
  defaultSchema : String := "dbo"
  /-- The schema whose types are the built-in ones. -/
  systemSchema : String := "sys"
  /-- Look in the query text for `FOR JSON` options that came without structure. -/
  jsonTextFallback : Bool := true
  /-- How many queries may be open inside one another. -/
  maxNestingDepth : Nat := 64
  /-- Workers of a batch; zero stands for the processors there are. -/
  parallelism : Nat := 0
  deriving DecidableEq, Repr, Inhabited

end ResultShape
