import ResultShape.Typing.Aggregate
/-! Built-in functions and global variables: the rule that types the value of each. -/
namespace ResultShape

/-- How the value of a built-in function is typed. -/
inductive BuiltinRule where
  | aggregate
  /-- Always this type; without a nullability of its own the value is null when an argument is. -/
  | fixed (sqlType : SqlType) (isNullable : Option Bool)
  /-- The value of one argument. -/
  | passThrough (argument : Nat)
  /-- Text of any length. -/
  | unboundedText
  | jsonQuery
  | isNull
  | coalesce
  | nullif
  deriving DecidableEq, Repr

namespace BuiltinRule

private def fixedFor (names : List String) (sqlType : SqlType) (isNullable : Option Bool) :
    List (String × BuiltinRule) := names.map (·, fixed sqlType isNullable)

/-- The rules by folded name, the aggregates aside. -/
def table : List (String × BuiltinRule) :=
  fixedFor ["rowcount_big", "row_number", "rank", "dense_rank", "ntile"] .bigint (some false) ++
  fixedFor ["getdate", "getutcdate", "current_timestamp"] .datetime (some false) ++
  fixedFor ["sysdatetime", "sysutcdatetime"] (.datetime2 7) (some false) ++
  fixedFor ["sysdatetimeoffset"] (.datetimeoffset 7) (some false) ++
  fixedFor ["newid", "newsequentialid"] .uniqueidentifier (some false) ++
  fixedFor ["len", "datalength", "charindex", "patindex", "datediff", "datepart", "year",
    "month", "day", "isjson", "checksum", "binary_checksum", "unicode", "ascii",
    "isnumeric"] .int none ++
  fixedFor ["datediff_big"] .bigint none ++
  fixedFor ["scope_identity", "ident_current"] (.decimal 38 0) (some true) ++
  fixedFor ["json_value", "format"] (.nvarchar 4000) (some true) ++
  fixedFor ["json_modify"] .nvarcharMax (some true) ++
  fixedFor ["datename"] (.nvarchar 30) none ++
  fixedFor ["user_name", "suser_sname", "db_name", "object_name", "schema_name",
    "host_name", "app_name", "error_procedure"] (.nvarchar 128) (some true) ++
  fixedFor ["error_message"] (.nvarchar 4000) (some true) ++
  fixedFor ["error_number", "error_severity", "error_state", "error_line"] .int (some true) ++
  ["concat", "concat_ws", "string_agg"].map (·, unboundedText) ++
  ["upper", "lower", "ltrim", "rtrim", "trim", "reverse", "left", "right", "substring",
    "abs", "round", "floor", "ceiling", "sign"].map (·, passThrough 0) ++
  [("dateadd", passThrough 2), ("json_query", jsonQuery), ("isnull", isNull),
    ("coalesce", coalesce), ("nullif", nullif)]

/-- The rule of a function named without a schema; none for a user-defined one. -/
def ofName? (name : String) : Option BuiltinRule :=
  if AggregateRegistry.standard.isAggregate name then some aggregate
  else table.lookup (Text.fold name)

end BuiltinRule

/-- Type and nullability of a global variable such as `@@ROWCOUNT`. -/
def globalVariable? (name : String) : Option (SqlType × Bool) :=
  let name := Text.fold name
  if ["@@rowcount", "@@error", "@@trancount", "@@fetch_status", "@@spid"].contains name
  then some (.int, false)
  else if name = "@@identity" then some (.decimal 38 0, true)
  else if ["@@servername", "@@servicename"].contains name then some (.nvarchar 128, true)
  else if name = "@@version" then some (.nvarchar 300, false)
  else none

end ResultShape
