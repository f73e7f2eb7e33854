import TableMapper.Text.Ascii
import TableMapper.Text.Blank

/-!
# Column type codes

The types a metadata source reports, each with its vendor-neutral code and
the name a mapper document binds parameters with, and the type that a MySQL
column declaration stands for.
-/

namespace TableMapper

/-- The column types the generator knows. -/
inductive JdbcType
  | array | bigint | binary | bit | blob | boolean | char | clob | datalink | date | decimal
  | distinct | double | float | integer | javaObject | longNVarchar | longVarbinary
  | longVarchar | nChar | nClob | null | numeric | nVarchar | other | real | ref | smallint
  | struct | time | timeWithTimezone | timestamp | timestampWithTimezone | tinyint | varbinary
  | varchar
deriving Repr, DecidableEq, Inhabited

namespace JdbcType

/-- Every type, in the order of their names. -/
def all : List JdbcType :=
  [.array, .bigint, .binary, .bit, .blob, .boolean, .char, .clob, .datalink, .date, .decimal,
   .distinct, .double, .float, .integer, .javaObject, .longNVarchar, .longVarbinary,
   .longVarchar, .nChar, .nClob, .null, .numeric, .nVarchar, .other, .real, .ref, .smallint,
   .struct, .time, .timeWithTimezone, .timestamp, .timestampWithTimezone, .tinyint, .varbinary,
   .varchar]

/-- The code of a type. -/
def code : JdbcType → Int
  | .array => 2003
  | .bigint => -5
  | .binary => -2
  | .bit => -7
  | .blob => 2004
  | .boolean => 16
  | .char => 1
  | .clob => 2005
  | .datalink => 70
  | .date => 91
  | .decimal => 3
  | .distinct => 2001
  | .double => 8
  | .float => 6
  | .integer => 4
  | .javaObject => 2000
  | .longNVarchar => -16
  | .longVarbinary => -4
  | .longVarchar => -1
  | .nChar => -15
  | .nClob => 2011
  | .null => 0
  | .numeric => 2
  | .nVarchar => -9
  | .other => 1111
  | .real => 7
  | .ref => 2006
  | .smallint => 5
  | .struct => 2002
  | .time => 92
  | .timeWithTimezone => 2013
  | .timestamp => 93
  | .timestampWithTimezone => 2014
  | .tinyint => -6
  | .varbinary => -3
  | .varchar => 12

/-- The name of a type as a mapper document writes it. -/
def name : JdbcType → String
  | .array => "ARRAY"
  | .bigint => "BIGINT"
  | .binary => "BINARY"
  | .bit => "BIT"
  | .blob => "BLOB"
  | .boolean => "BOOLEAN"
  | .char => "CHAR"
  | .clob => "CLOB"
  | .datalink => "DATALINK"
  | .date => "DATE"
  | .decimal => "DECIMAL"
  | .distinct => "DISTINCT"
  | .double => "DOUBLE"
  | .float => "FLOAT"
  | .integer => "INTEGER"
  | .javaObject => "JAVA_OBJECT"
  | .longNVarchar => "LONGNVARCHAR"
  | .longVarbinary => "LONGVARBINARY"
  | .longVarchar => "LONGVARCHAR"
  | .nChar => "NCHAR"
  | .nClob => "NCLOB"
  | .null => "NULL"
  | .numeric => "NUMERIC"
  | .nVarchar => "NVARCHAR"
  | .other => "OTHER"
  | .real => "REAL"
  | .ref => "REF"
  | .smallint => "SMALLINT"
  | .struct => "STRUCT"
  | .time => "TIME"
  | .timeWithTimezone => "TIME_WITH_TIMEZONE"
  | .timestamp => "TIMESTAMP"
  | .timestampWithTimezone => "TIMESTAMP_WITH_TIMEZONE"
  | .tinyint => "TINYINT"
  | .varbinary => "VARBINARY"
  | .varchar => "VARCHAR"

/-- The type with a code. -/
def ofCode? (code : Int) : Option JdbcType :=
  all.find? (·.code == code)

/-- The type with a name, in any case. -/
def ofName? (name : String) : Option JdbcType :=
  all.find? fun t => Text.sameIgnoringCase t.name name

@[simp] theorem ofCode?_code (t : JdbcType) : ofCode? t.code = some t := by
  cases t <;> rfl

/-- **Large objects** are kept out of the base columns. -/
def isLargeObject : JdbcType → Bool
  | .binary | .blob | .clob | .longNVarchar | .longVarbinary | .longVarchar | .nClob
  | .varbinary => true
  | _ => false

/-- The first word of a declared type, in upper case: `VARCHAR(20)` and
`varchar binary` are both `VARCHAR`. -/
def declaredWord (declared : String) : String :=
  Text.asciiUpper
    (String.ofList (declared.toList.takeWhile fun c => !(c == '(' || Text.isBlank c)))

/-- **The type of a MySQL column declaration**, by its first word. -/
def ofDeclared (declared : String) : JdbcType :=
  match declaredWord declared with
  | "BIT" => .bit
  | "BOOL" | "BOOLEAN" => .boolean
  | "TINYINT" => .tinyint
  | "SMALLINT" => .smallint
  | "MEDIUMINT" | "INT" | "INTEGER" => .integer
  | "BIGINT" => .bigint
  | "FLOAT" => .real
  | "DOUBLE" | "REAL" => .double
  | "DECIMAL" | "DEC" | "NUMERIC" | "FIXED" => .decimal
  | "CHAR" | "ENUM" | "SET" => .char
  | "VARCHAR" => .varchar
  | "TINYTEXT" | "TEXT" | "MEDIUMTEXT" | "LONGTEXT" | "JSON" => .longVarchar
  | "DATE" | "YEAR" => .date
  | "TIME" => .time
  | "DATETIME" | "TIMESTAMP" => .timestamp
  | "BINARY" => .binary
  | "VARBINARY" => .varbinary
  | "TINYBLOB" | "BLOB" | "MEDIUMBLOB" | "LONGBLOB" => .longVarbinary
  | _ => .other

end JdbcType

end TableMapper
