import ResultShape.Config
import ResultShape.Json.Numbers
import ResultShape.Json.Record
/-! Settings read from a document. -/
namespace ResultShape.Config

open FieldReader

/-- A size that fits sixty-four bits. -/
private def size? (j : Json) : Option Nat := j.natBelow? UInt64.size

def fields : FieldReader Json Config := do
  let d : Config := {}
  let defaultSchema ← withDefault "default_schema" d.defaultSchema Json.text?
  let systemSchema ← withDefault "system_schema" d.systemSchema Json.text?
  let jsonTextFallback ← withDefault "json_text_fallback" d.jsonTextFallback Json.bool?
  let maxNestingDepth ← withDefault "max_nesting_depth" d.maxNestingDepth size?
  let parallelism ← withDefault "parallelism" d.parallelism size?
  return { defaultSchema, systemSchema, jsonTextFallback, maxNestingDepth, parallelism }

/-- Every setting has a default; one that is there has to be of its type. -/
def ofJson? (j : Json) : Option Config := j.record? fields

end ResultShape.Config
