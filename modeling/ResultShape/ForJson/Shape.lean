import ResultShape.Model.ResultSet
import ResultShape.Sql.ForClause
import ResultShape.Text.Dotted
/-! The fields of a JSON document: columns with dotted names nest, and JSON
columns keep what is inside them. -/
namespace ResultShape

namespace JsonField

/-- The path of a field inside another; the document itself has the empty path. -/
def pathUnder (outer name : String) : String := if outer.isEmpty then name else outer ++ "." ++ name

def updateFirst (p : JsonField → Bool) (f : JsonField → JsonField) : List JsonField → List JsonField
  | [] => []
  | field :: rest => if p field then f field :: rest else field :: updateFirst p f rest

/-- Puts a field at the end of a chain of containers; containers that are missing come last. -/
def insertAt (make : String → String → JsonField) :
    List String → String → List JsonField → List JsonField
  | [], _, fields => fields
  | [name], outer, fields => fields ++ [make name (pathUnder outer name)]
  | name :: rest, outer, fields =>
    let path := pathUnder outer name
    let fields := if fields.any (·.path == path) then fields else fields ++ [leaf name path]
    updateFirst (·.path == path)
      (fun f => { f with children := insertAt make rest path f.children }) fields

end JsonField

namespace ResultColumn

/-- In path mode the dots in a name separate the containers. -/
def fieldSegments (mode : JsonMode) (name : String) : List String :=
  match mode with
  | .path => Text.segments name
  | .auto => [name]

mutual

/-- The field of a column once its name and path are settled. -/
def fieldAt : ResultColumn → String → String → JsonField
  | ⟨_, _, _, _, _, _, _, _, _, _, json, children⟩, name, path =>
    match json with
    | some info => ⟨name, path, info.isArray, fieldsInto .path path children []⟩
    | none => .leaf name path

/-- Adds the fields of columns, in turn, to those there are. -/
def fieldsInto (mode : JsonMode) (outer : String) :
    List ResultColumn → List JsonField → List JsonField
  | [], fields => fields
  | c :: cs, fields =>
    fieldsInto mode outer cs (JsonField.insertAt c.fieldAt (fieldSegments mode c.name) outer fields)

end

/-- The fields of a document with these columns, which is itself at a path. -/
def jsonFields (mode : JsonMode) (outer : String) (columns : List ResultColumn) : List JsonField :=
  fieldsInto mode outer columns []

end ResultColumn

end ResultShape
