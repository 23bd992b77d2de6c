/-! What can go wrong when metadata is loaded. -/
namespace ResultShape

inductive CatalogError where
  /-- There is no such file, or it cannot be read. -/
  | unreadable (path message : String)
  /-- The text is no JSON, or not a snapshot. -/
  | invalidDocument (path message : String)
  /-- One record does not read; it is skipped. -/
  | invalidRecord (kind : String) (index : Nat) (message : String)
  deriving DecidableEq, Repr

def CatalogError.message : CatalogError → String
  | .unreadable path message => "CatalogError: cannot read '" ++ path ++ "': " ++ message
  | .invalidDocument path message => "CatalogError: invalid snapshot '" ++ path ++ "': " ++ message
  | .invalidRecord kind index message =>
    "CatalogError: " ++ kind ++ " record #" ++ toString index ++ " skipped: " ++ message

end ResultShape
