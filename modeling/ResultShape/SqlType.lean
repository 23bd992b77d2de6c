import ResultShape.Text.Blank
import ResultShape.Text.Fold
/-! SQL types: a base name with length, precision and scale. -/
namespace ResultShape

/-- A base type with its facets. A length counts characters for `nchar` and `nvarchar` and bytes
otherwise; a negative one stands for `(max)`. -/
structure SqlType where
  base : String
  maxLength : Option Int32
  precision : Option UInt8
  scale : Option UInt8
  deriving DecidableEq, Repr, Inhabited

namespace SqlType

/-- Names that mean a built-in type without being its name. -/
def synonyms : List (String × String) :=
  [("integer", "int"), ("dec", "decimal"), ("double precision", "float"), ("character", "char"),
   ("char varying", "varchar"), ("character varying", "varchar"),
   ("national char", "nchar"), ("national character", "nchar"),
   ("national char varying", "nvarchar"), ("national character varying", "nvarchar"),
   ("nchar varying", "nvarchar"), ("binary varying", "varbinary")]

def builtinNames : List String :=
  ["bigint", "binary", "bit", "char", "date", "datetime", "datetime2", "datetimeoffset", "decimal",
   "float", "geography", "geometry", "hierarchyid", "image", "int", "money", "nchar", "ntext",
   "numeric", "nvarchar", "real", "rowversion", "smalldatetime", "smallint", "smallmoney",
   "sql_variant", "sysname", "text", "time", "timestamp", "tinyint", "uniqueidentifier",
   "varbinary", "varchar", "xml"]

def unbracket (cs : List Char) : List Char := Text.dropEndWhile (· = ']') (cs.dropWhile (· = '['))

/-- Brackets off, blanks between words reduced to one, letters folded, synonyms resolved. -/
def normalize (name : String) : String :=
  let words := Text.words (unbracket (Text.trim name.toList))
  let folded := Text.fold (" ".intercalate (words.map String.ofList))
  (synonyms.lookup folded).getD folded

def isBuiltin (name : String) : Bool := builtinNames.contains (normalize name)

/-- A type of this name without facets. -/
def ofName (name : String) : SqlType := ⟨normalize name, none, none, none⟩

/-- A name kept as written, for a type that nobody knows. -/
def verbatim (name : String) : SqlType := ⟨name, none, none, none⟩

def withLength (t : SqlType) (length : Int32) : SqlType := { t with maxLength := some length }

def withPrecision (t : SqlType) (precision scale : UInt8) : SqlType :=
  { t with precision := some precision, scale := some scale }

def withScale (t : SqlType) (scale : UInt8) : SqlType := { t with scale := some scale }

def bigint : SqlType := ⟨"bigint", none, none, none⟩
def bit : SqlType := ⟨"bit", none, none, none⟩
def float : SqlType := ⟨"float", none, none, none⟩
def int : SqlType := ⟨"int", none, none, none⟩
def money : SqlType := ⟨"money", none, none, none⟩
def tinyint : SqlType := ⟨"tinyint", none, none, none⟩
def uniqueidentifier : SqlType := ⟨"uniqueidentifier", none, none, none⟩
def datetime : SqlType := ⟨"datetime", none, none, none⟩
def datetime2 (scale : UInt8) : SqlType := ⟨"datetime2", none, none, some scale⟩
def datetimeoffset (scale : UInt8) : SqlType := ⟨"datetimeoffset", none, none, some scale⟩
def decimal (precision scale : UInt8) : SqlType := ⟨"decimal", none, some precision, some scale⟩
def varchar (length : Int32) : SqlType := ⟨"varchar", some length, none, none⟩
def nvarchar (length : Int32) : SqlType := ⟨"nvarchar", some length, none, none⟩
def varbinary (length : Int32) : SqlType := ⟨"varbinary", some length, none, none⟩

/-- The length that stands for `(max)`. -/
def unbounded : Int32 := -1

def nvarcharMax : SqlType := nvarchar unbounded

/-- A built-in type with facets; `sysname` is another word for `nvarchar(128)`. -/
def builtin (name : String) (maxLength : Option Int32) (precision scale : Option UInt8) : SqlType :=
  let base := normalize name
  if base = "sysname" then nvarchar 128 else ⟨base, maxLength, precision, scale⟩

def isLengthBearing (t : SqlType) : Bool :=
  ["char", "varchar", "nchar", "nvarchar", "binary", "varbinary"].contains t.base

def isMax (t : SqlType) : Bool := t.maxLength.any (· < 0)

def isExactDecimal (t : SqlType) : Bool := ["decimal", "numeric"].contains t.base

def isInteger (t : SqlType) : Bool := ["tinyint", "smallint", "int", "bigint"].contains t.base

def isMoney (t : SqlType) : Bool := ["money", "smallmoney"].contains t.base

def isApproximate (t : SqlType) : Bool := ["float", "real"].contains t.base

def isText (t : SqlType) : Bool :=
  ["char", "varchar", "nchar", "nvarchar", "text", "ntext"].contains t.base

def hasTimeScale (t : SqlType) : Bool := ["time", "datetime2", "datetimeoffset"].contains t.base

/-- A name with its facets in parentheses. -/
def withFacets (base : String) (facets : List String) : String :=
  base ++ "(" ++ ",".intercalate facets ++ ")"

/-- The type as SQL writes it, with the facets that its base has. -/
def render (t : SqlType) : String :=
  if t.isLengthBearing then
    match t.maxLength with
    | some length => withFacets t.base [if length < 0 then "max" else toString length]
    | none => t.base
  else if t.isExactDecimal then
    match t.precision with
    | some precision => withFacets t.base [toString precision, toString (t.scale.getD 0)]
    | none => t.base
  else if t.hasTimeScale then
    match t.scale with
    | some scale => withFacets t.base [toString scale]
    | none => t.base
  else t.base

end SqlType

end ResultShape
