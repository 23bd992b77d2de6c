import ResultShape.Decimal.Leading
import ResultShape.Json.Basic
/-! JSON tokens: a text read character by character as brackets, separators and scalar values. -/
namespace ResultShape.Json

inductive Token where
  /-- A bracket, a comma or a colon. -/
  | mark (c : Char)
  | scalar (v : Json)

/-- How far an escape inside a text has been read. -/
inductive Escape where
  | none
  /-- A backslash. -/
  | opened
  /-- Some of the four hexadecimal digits of a unit; `high` is the first half of a pair. -/
  | unit (left value : Nat) (high : Option Nat)
  /-- A first half of a pair; its second half has to follow. -/
  | half (high : Nat)
  | halfOpened (high : Nat)

/-- What the characters read last belong to; parts are held in reverse. -/
inductive Reading where
  | between
  | word (part : List Char)
  | number (part : List Char)
  | text (part : List Char) (escape : Escape)

private def isNumeric (c : Char) : Bool := c.isDigit || "+-.eE".toList.contains c

/-- The integers of sixty-four bits, with a sign or without. -/
def isInteger64 (n : Int) : Bool := Int64.minValue.toInt ≤ n && n < UInt64.size

/-- A number as an integer if it is written as one and fits sixty-four bits; the leading digits of
any other number must not lead out of the range of doubles. -/
def number? (cs : List Char) : Option Json := do
  let w ← Decimal.Written.ofChars? cs
  if !w.strict then none else
    let d ← w.value?
    let n : Int := if d.negative then -(d.digits : Int) else d.digits
    if w.integral && !(d.negative && d.digits == 0) && isInteger64 n then some (.integer n)
    else if (← w.leading?).overflows then none
    else some (.real d)

def word? (cs : List Char) : Option Json :=
  match String.ofList cs with
  | "null" => some .null
  | "true" => some (.bool true)
  | "false" => some (.bool false)
  | _ => none

private def hexDigit? (c : Char) : Option Nat :=
  if c.isDigit then some (c.toNat - '0'.toNat)
  else if 'a' ≤ c ∧ c ≤ 'f' then some (c.toNat - 'a'.toNat + 10)
  else if 'A' ≤ c ∧ c ≤ 'F' then some (c.toNat - 'A'.toNat + 10)
  else none

/-- A finished unit: a character, the first half of a pair, or with that half in hand the second. -/
private def closeUnit (part : List Char) (unit : Nat) : Option Nat → Option Reading
  | none =>
    if 0xD800 ≤ unit ∧ unit < 0xDC00 then some (.text part (.half unit))
    else if 0xDC00 ≤ unit ∧ unit < 0xE000 then none
    else some (.text (Char.ofNat unit :: part) .none)
  | some high =>
    if 0xDC00 ≤ unit ∧ unit < 0xE000 then
      some (.text (Char.ofNat (0x10000 + (high - 0xD800) * 0x400 + (unit - 0xDC00)) :: part) .none)
    else none

private def escaped? : Char → Option Char
  | '"' => some '"'
  | '\\' => some '\\'
  | '/' => some '/'
  | 'b' => some '\x08'
  | 'f' => some '\x0c'
  | 'n' => some '\n'
  | 'r' => some '\r'
  | 't' => some '\t'
  | _ => none

/-- The tokens so far, in reverse, and what is being read. -/
structure Scan where
  tokens : List Token
  reading : Reading

private def Scan.begin (tokens : List Token) (c : Char) : Option Scan :=
  if " \t\n\r".toList.contains c then some ⟨tokens, .between⟩
  else if "[]\x7b\x7d,:".toList.contains c then some ⟨.mark c :: tokens, .between⟩
  else if c = '"' then some ⟨tokens, .text [] .none⟩
  else if c.isDigit || c == '-' then some ⟨tokens, .number [c]⟩
  else if c.isLower then some ⟨tokens, .word [c]⟩
  else none

private def Scan.inText (tokens : List Token) (part : List Char) (c : Char) : Escape → Option Scan
  | .none =>
    if c = '"' then some ⟨.scalar (.text (String.ofList part.reverse)) :: tokens, .between⟩
    else if c = '\\' then some ⟨tokens, .text part .opened⟩
    else if c.toNat < 32 then none
    else some ⟨tokens, .text (c :: part) .none⟩
  | .opened =>
    if c = 'u' then some ⟨tokens, .text part (.unit 4 0 none)⟩
    else (escaped? c).map fun c => ⟨tokens, .text (c :: part) .none⟩
  | .unit left value high => do
    let value := 16 * value + (← hexDigit? c)
    if left ≤ 1 then return ⟨tokens, ← closeUnit part value high⟩
    else return ⟨tokens, .text part (.unit (left - 1) value high)⟩
  | .half high => if c = '\\' then some ⟨tokens, .text part (.halfOpened high)⟩ else none
  | .halfOpened high => if c = 'u' then some ⟨tokens, .text part (.unit 4 0 (some high))⟩ else none

def Scan.step (s : Scan) (c : Char) : Option Scan :=
  match s.reading with
  | .between => begin s.tokens c
  | .word part =>
    if c.isLower then some ⟨s.tokens, .word (c :: part)⟩
    else do begin (.scalar (← word? part.reverse) :: s.tokens) c
  | .number part =>
    if isNumeric c then some ⟨s.tokens, .number (c :: part)⟩
    else do begin (.scalar (← number? part.reverse) :: s.tokens) c
  | .text part escape => inText s.tokens part c escape

/-- The tokens of a text, if it is made of tokens. -/
def tokens? (s : String) : Option (List Token) := do
  let scan ← s.toList.foldlM Scan.step ⟨[], .between⟩
  match scan.reading with
  | .between => return scan.tokens.reverse
  | .word part => return (.scalar (← word? part.reverse) :: scan.tokens).reverse
  | .number part => return (.scalar (← number? part.reverse) :: scan.tokens).reverse
  | .text .. => none

end ResultShape.Json
