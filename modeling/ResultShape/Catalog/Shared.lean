import ResultShape.Catalog.Document
/-! A shared catalog: loaded by the first who asks for it, and the same for everyone after. -/
namespace ResultShape

/-- A place for one catalog, empty until the first load. -/
structure SharedCatalog where
  current : Option Catalog := none
  deriving Inhabited

namespace SharedCatalog

/-- The catalog that is there, or else the one just loaded, which stays. -/
def getOrLoad (h : SharedCatalog) (load : Unit → Catalog) : Catalog × SharedCatalog :=
  match h.current with
  | some c => (c, h)
  | none => let c := load (); (c, ⟨some c⟩)

/-- Loads from the text of a file; a file that does not load gives the built-in types only. -/
def getOrLoadFile (h : SharedCatalog) (config : Config) (path : String) (text : Option String) :
    Catalog × SharedCatalog :=
  h.getOrLoad fun _ =>
    match Snapshot.ofFile path text with
    | .ok s => .ofSnapshot s config
    | .error _ => .builtinOnly config

theorem getOrLoad_of_current {h : SharedCatalog} {c : Catalog} (hc : h.current = some c)
    (load : Unit → Catalog) :
    h.getOrLoad load = (c, h) := by simp [getOrLoad, hc]

end SharedCatalog

end ResultShape
