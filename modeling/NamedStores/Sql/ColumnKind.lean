/-
How the values of a column are read, by the first word of its type name in any case.
-/
import NamedStores.Text.Blank
import NamedStores.Text.Case

namespace NamedStores.Sql

inductive ColumnKind where
  | integer
  | float
  | decimal
  | boolean
  | bytes
  | json
  | temporal
  | text
  deriving DecidableEq

namespace ColumnKind

def name : ColumnKind → String
  | .integer => "Integer"
  | .float => "Float"
  | .decimal => "Decimal"
  | .boolean => "Boolean"
  | .bytes => "Bytes"
  | .json => "Json"
  | .temporal => "Temporal"
  | .text => "Text"

/-- The type names of each kind; any other is text. -/
def typeNames : List (ColumnKind × List String) := [
  (.boolean, ["bool", "boolean"]),
  (.integer, ["tinyint", "smallint", "mediumint", "int", "integer", "bigint", "int2", "int4",
    "int8", "smallserial", "serial", "bigserial"]),
  (.float, ["real", "float", "float4", "float8", "double"]),
  (.decimal, ["decimal", "numeric"]),
  (.json, ["json", "jsonb"]),
  (.bytes, ["bytea", "blob", "tinyblob", "mediumblob", "longblob", "binary", "varbinary"]),
  (.temporal, ["date", "time", "datetime", "timestamp", "timestamptz"])]

def ofTypeName (typeName : String) : ColumnKind :=
  let word := String.ofList (Blank.firstWord (typeName.toList.map Case.lowerAscii))
  ((typeNames.find? fun p => p.2.contains word).map (·.1)).getD .text

end ColumnKind

end NamedStores.Sql
