import ResultShape.Analysis.Routine
/-! Analyses of single routines and of batches of them. -/
namespace ResultShape

/-- A routine to be analysed; without a tree when nobody could read its text. -/
structure RoutineInput where
  name : String
  routine : Option Routine

inductive Outcome where
  | analyzed (model : RoutineModel)
  /-- There was no tree; the model is empty. -/
  | unparseable (model : RoutineModel)
  | failed (error : AnalysisError)

structure RoutineAnalysis where
  name : String
  outcome : Outcome

/-- Analyses routines against one catalog. -/
structure Analyzer where
  catalog : Catalog
  config : Config

namespace Analyzer

def analyze (a : Analyzer) (input : RoutineInput) : RoutineAnalysis where
  name := input.name
  outcome :=
    match input.routine with
    | none => .unparseable {}
    | some routine =>
      match routine.model a.catalog a.config with
      | .ok model => .analyzed model
      | .error error => .failed error

/-- How many workers a batch may have: the number set, or as many as there are
processors, up to sixty-four. -/
def workers (a : Analyzer) (processors : Nat) : Nat :=
  if a.config.parallelism = 0 then max 1 (min processors 64) else a.config.parallelism

/-- Pieces of a list of `size` items each, the last one perhaps shorter. -/
def pieces {α : Type} (size : Nat) : Nat → List α → List (List α)
  | _, [] => []
  | 0, xs => [xs]
  | count + 1, xs => xs.take size :: pieces size count (xs.drop size)

/-- The analyses of a batch in the order of the inputs, which the workers share out in pieces. -/
def analyzeBatch (a : Analyzer) (processors : Nat) (inputs : List RoutineInput) :
    List RoutineAnalysis :=
  let workers := min (a.workers processors) inputs.length
  if workers ≤ 1 then inputs.map a.analyze
  else
    let size := (inputs.length + workers - 1) / workers
    (pieces size workers inputs).flatMap (·.map a.analyze)

end Analyzer

end ResultShape
