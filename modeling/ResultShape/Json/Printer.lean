import ResultShape.Json.Basic
/-! Writing JSON: one line without spaces. -/
namespace ResultShape.Json

private def hexUnit (n : Nat) : String :=
  let digits := Nat.toDigits 16 n
  "\\u" ++ String.ofList (List.replicate (4 - digits.length) '0' ++ digits)

private def writeChar (out : String) (c : Char) : String :=
  if c = '"' then out ++ "\\\""
  else if c = '\\' then out ++ "\\\\"
  else if c.toNat < 32 then out ++ hexUnit c.toNat
  else out.push c

/-- A text in quotes; quotes, backslashes and control characters are escaped. -/
def quote (out s : String) : String := (s.foldl writeChar (out.push '"')).push '"'

mutual

/-- Appends the text of a value. -/
def write (out : String) : Json → String
  | .null => out ++ "null"
  | .bool b => out ++ if b then "true" else "false"
  | .integer n => out ++ toString n
  | .real d =>
    (out ++ if d.negative then "-" else "") ++ toString d.digits ++ "e" ++ toString d.exponent
  | .text s => quote out s
  | .array items => (writeItems (out.push '[') true items).push ']'
  | .object members => (writeMembers (out.push '\x7b') true members).push '\x7d'

private def writeItems (out : String) (first : Bool) : List Json → String
  | [] => out
  | item :: rest => writeItems (write (if first then out else out.push ',') item) false rest

private def writeMembers (out : String) (first : Bool) : List (String × Json) → String
  | [] => out
  | (key, item) :: rest =>
    writeMembers
      (write ((quote (if first then out else out.push ',') key).push ':') item) false rest

end

def print (j : Json) : String := write "" j

end ResultShape.Json
