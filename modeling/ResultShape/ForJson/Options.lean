import ResultShape.Sql.ForClause
/-! The options of a `FOR JSON` clause. -/
namespace ResultShape

/-- What a `FOR JSON` clause says; a value that is absent was not stated. -/
structure ForJson where
  mode : JsonMode
  withoutArrayWrapper : Option Bool := none
  rootName : Option String := none
  includeNullValues : Option Bool := none
  /-- Option text that came without structure. -/
  unparsed : List String := []
  deriving DecidableEq, Repr

namespace ForJson

/-- The name of a root that is given none. -/
def defaultRoot : String := "root"

def withOption (f : ForJson) : JsonOption → ForJson
  | .withoutArrayWrapper => { f with withoutArrayWrapper := some true }
  | .includeNullValues => { f with includeNullValues := some true }
  | .root name => { f with rootName := some (name.getD defaultRoot) }
  | .unparsed text => { f with unparsed := f.unparsed ++ [text] }

/-- The options of a clause that is `FOR JSON`; of two roots the last one counts. -/
def ofClause? : ForClause → Option ForJson
  | .json mode options => some (options.foldl withOption { mode })
  | _ => none

def returnsArray (f : ForJson) : Bool := !f.withoutArrayWrapper.getD false

def includesNulls (f : ForJson) : Bool := f.includeNullValues.getD false

end ForJson

end ResultShape
