/-! Fields of the JSON document that a result set is written as. -/
namespace ResultShape

/-- A field with the dotted path that leads to it. One with children is a container. -/
structure JsonField where
  name : String
  path : String
  isArray : Bool
  children : List JsonField
  deriving Inhabited

namespace JsonField

def leaf (name path : String) : JsonField := ⟨name, path, false, []⟩

def isContainer (f : JsonField) : Bool := !f.children.isEmpty

mutual

/-- The first field with this path, a field before those inside it. -/
def find? (wanted : String) : JsonField → Option JsonField
  | f@⟨_, path, _, children⟩ => if path = wanted then some f else findIn? wanted children

def findIn? (wanted : String) : List JsonField → Option JsonField
  | [] => none
  | f :: fs => (find? wanted f).or (findIn? wanted fs)

end

end JsonField

end ResultShape
