/-! The `FOR` clause of a query and the options of `FOR JSON`. -/
namespace ResultShape

inductive JsonMode where
  | auto
  | path
  deriving DecidableEq, Repr, Inhabited

inductive JsonOption where
  /-- `ROOT`, or `ROOT('name')`. -/
  | root (name : Option String)
  | includeNullValues
  | withoutArrayWrapper
  /-- Option text that came without structure. -/
  | unparsed (text : String)
  deriving DecidableEq, Repr

inductive ForClause where
  | json (mode : JsonMode) (options : List JsonOption)
  | xml (text : String)
  | browse
  deriving DecidableEq, Repr

def ForClause.isJson : ForClause → Bool
  | .json .. => true
  | _ => false

end ResultShape
