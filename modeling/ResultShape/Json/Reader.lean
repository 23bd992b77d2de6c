import ResultShape.Json.Token
/-! Reading JSON: the tokens of a text folded into one value over a stack of open brackets. -/
namespace ResultShape.Json

/-- An open array with its items in reverse, or an open object with its
members and the key in hand. -/
inductive Frame where
  | array (items : List Json)
  | object (members : Keyed String Json) (key : String)

/-- What may come next. -/
inductive Expected where
  | value
  /-- A value, or the end of the array just opened. -/
  | item
  /-- A key, or the end of the object just opened. -/
  | firstKey
  | key
  | colon
  /-- A comma, or the end of what is open. -/
  | separator
  | nothing

structure Parse where
  stack : List Frame
  expected : Expected
  result : Option Json

namespace Parse

def start : Parse := ⟨[], .value, none⟩

/-- Hands a finished value to the innermost open bracket; a repeated key takes its last value. -/
def deliver (stack : List Frame) (v : Json) : Parse :=
  match stack with
  | [] => ⟨[], .nothing, some v⟩
  | .array items :: rest => ⟨.array (v :: items) :: rest, .separator, none⟩
  | .object members key :: rest => ⟨.object (members.insert key v) key :: rest, .separator, none⟩

private def begin (limit : Option Nat) (stack : List Frame) (frame : Frame) (expected : Expected) :
    Option Parse :=
  if limit.all (stack.length + 1 < ·) then some ⟨frame :: stack, expected, none⟩ else none

private def value (limit : Option Nat) (stack : List Frame) : Token → Option Parse
  | .scalar v => some (deliver stack v)
  | .mark '[' => begin limit stack (.array []) .item
  | .mark '\x7b' => begin limit stack (.object .empty "") .firstKey
  | .mark _ => none

private def key (stack : List Frame) : Token → Option Parse
  | .scalar (.text k) =>
    match stack with
    | .object members _ :: rest => some ⟨.object members k :: rest, .colon, none⟩
    | _ => none
  | _ => none

private def close (stack : List Frame) (c : Char) : Option Parse :=
  match stack with
  | .array items :: rest => if c = ']' then some (deliver rest (.array items.reverse)) else none
  | .object members _ :: rest =>
    if c = '\x7d' then some (deliver rest (.object members.toList)) else none
  | [] => none

def step (limit : Option Nat) (p : Parse) (t : Token) : Option Parse :=
  match p.expected, t with
  | .value, t => value limit p.stack t
  | .item, .mark ']' => close p.stack ']'
  | .item, t => value limit p.stack t
  | .firstKey, .mark '\x7d' => close p.stack '\x7d'
  | .firstKey, t => key p.stack t
  | .key, t => key p.stack t
  | .colon, .mark ':' => some ⟨p.stack, .value, none⟩
  | .separator, .mark ',' =>
    match p.stack with
    | .array _ :: _ => some ⟨p.stack, .value, none⟩
    | .object .. :: _ => some ⟨p.stack, .key, none⟩
    | [] => none
  | .separator, .mark c => close p.stack c
  | _, _ => none

end Parse

/-- The value of a text that holds one value and nothing else, with fewer than
`limit` brackets open at once. -/
def read? (limit : Option Nat) (s : String) : Option Json := do
  (← (← tokens? s).foldlM (Parse.step limit) .start).result

end ResultShape.Json
