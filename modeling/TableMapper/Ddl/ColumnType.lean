import TableMapper.Ddl.Reading

/-!
# Column types

The type of a column as a definition declares it, and its normal spelling:
keywords in upper case, `DECIMAL(10,2)` without a blank, the members of an
enumeration with one. A type that is no built-in one is kept as written.
-/

namespace TableMapper.Ddl

/-- The integer types. -/
inductive IntegerKind
  | tinyint | smallint | mediumint | int | integer | bigint | int2 | int4 | int8
deriving Repr, DecidableEq

namespace IntegerKind

/-- Every integer type. -/
def all : List IntegerKind :=
  [.tinyint, .smallint, .mediumint, .int, .integer, .bigint, .int2, .int4, .int8]

/-- The keyword of an integer type. -/
def keyword : IntegerKind → String
  | .tinyint => "TINYINT"
  | .smallint => "SMALLINT"
  | .mediumint => "MEDIUMINT"
  | .int => "INT"
  | .integer => "INTEGER"
  | .bigint => "BIGINT"
  | .int2 => "INT2"
  | .int4 => "INT4"
  | .int8 => "INT8"

end IntegerKind

/-- The types with a precision and a scale. -/
inductive NumericKind
  | decimal | dec | numeric | float | double
deriving Repr, DecidableEq

namespace NumericKind

/-- Every type with a precision and a scale. -/
def all : List NumericKind :=
  [.decimal, .dec, .numeric, .float, .double]

/-- The keyword of a type. -/
def keyword : NumericKind → String
  | .decimal => "DECIMAL"
  | .dec => "DEC"
  | .numeric => "NUMERIC"
  | .float => "FLOAT"
  | .double => "DOUBLE"

/-- `NUMERIC` takes no `UNSIGNED`. -/
def hasUnsigned : NumericKind → Bool
  | .numeric => false
  | _ => true

end NumericKind

/-- The digits of a numeric type. -/
inductive Digits
  | unspecified
  | precision (p : Nat)
  | scaled (p : Nat) (scale : Int)
deriving Repr, DecidableEq

/-- How digits are spelled. -/
def Digits.spelling : Digits → String
  | .unspecified => ""
  | .precision p => s!"({p})"
  | .scaled p scale => s!"({p},{scale})"

/-- **A column type.** -/
inductive ColumnType
  | integer (kind : IntegerKind) (width : Option Nat) (unsigned : Bool)
  | numeric (kind : NumericKind) (digits : Digits) (unsigned : Bool)
  /-- A keyword, an optional argument, and keywords behind it. -/
  | sized (keyword : String) (argument : Option String) (ending : String)
  /-- An enumeration or a set with its members, spelled. -/
  | members (keyword : String) (values : List String)
  /-- A date and time distance, which no column has. -/
  | interval
  /-- A type by its name, with the arguments as written. -/
  | custom (path : List Name) (arguments : List String)
deriving Repr, DecidableEq

namespace ColumnType

/-- The keyword behind an unsigned type. -/
def unsignedMark (unsigned : Bool) : String :=
  if unsigned then " UNSIGNED" else ""

/-- **The spelling of a column type.** -/
def spelling : ColumnType → String
  | .integer kind width unsigned =>
    kind.keyword ++ (match width with | some n => s!"({n})" | none => "") ++ unsignedMark unsigned
  | .numeric kind digits unsigned => kind.keyword ++ digits.spelling ++ unsignedMark unsigned
  | .sized keyword argument ending =>
    keyword ++ (match argument with | some a => s!"({a})" | none => "") ++ ending
  | .members keyword values => keyword ++ "(" ++ ", ".intercalate values ++ ")"
  | .interval => "INTERVAL"
  | .custom path [] => Name.path path
  | .custom path arguments => Name.path path ++ "(" ++ ", ".intercalate arguments ++ ")"

/-- The types that are a keyword and nothing else, with their spelling. -/
def simple : List (String × String) :=
  (["BOOLEAN", "BOOL", "TINYBLOB", "MEDIUMBLOB", "LONGBLOB", "TINYTEXT", "TEXT", "MEDIUMTEXT",
    "LONGTEXT", "DATE", "JSON", "JSONB", "UUID", "BYTEA", "FLOAT4", "FLOAT8", "REGCLASS",
    "HUGEINT", "UHUGEINT", "UBIGINT", "USMALLINT", "UTINYINT", "TRIGGER"].map fun k => (k, k)) ++
  [("FLOAT32", "Float32"), ("FLOAT64", "FLOAT64"), ("DATE32", "Date32"), ("INT16", "Int16"),
   ("INT32", "Int32"), ("INT64", "INT64"), ("INT128", "Int128"), ("INT256", "Int256"),
   ("UINT8", "UInt8"), ("UINT16", "UInt16"), ("UINT32", "UInt32"), ("UINT64", "UInt64"),
   ("UINT128", "UInt128"), ("UINT256", "UInt256")]

/-- The types with an optional number behind them. -/
def measured : List String :=
  ["CLOB", "BINARY", "BLOB", "BYTES", "VARBIT", "DATETIME", "STRING", "TIMESTAMPTZ", "TIMETZ",
   "TIMESTAMP_NTZ"]

end ColumnType

namespace Reading

/-- An optional number between parentheses. -/
def width? : Reading (Option Nat) := do
  if ← symbol? "(" then
    let n ← natural
    symbol ")"
    return some n
  else return none

/-- `width?` as the argument of a type. -/
def measure? : Reading (Option String) := do
  return (← width?).map toString

/-- A signed whole number. -/
def integer : Reading Int := do
  let negative ← symbol? "-"
  if !negative then let _ ← symbol? "+"
  let n ← natural
  if n ≤ Int64.maxValue.toInt then return if negative then -n else n else refuse

/-- The optional precision and scale of a number. -/
def digits : Reading Digits := do
  if ← symbol? "(" then
    let p ← natural
    let digits ← (do if ← symbol? "," then return .scaled p (← integer) else return .precision p)
    symbol ")"
    return digits
  else return .unspecified

/-- The optional length of a text: a number, with or without a unit, or
`MAX`. -/
def textLength? : Reading (Option String) := do
  if ← symbol? "(" then
    let length ← (do
      if ← keyword? "MAX" then return "MAX"
      let n ← natural
      match ← oneOf? ["CHARACTERS", "OCTETS"] with
      | some unit => return s!"{n} {unit}"
      | none => return toString n)
    symbol ")"
    return some length
  else return none

/-- The optional length of a byte string: a number or `MAX`. -/
def byteLength? : Reading (Option String) := do
  if ← symbol? "(" then
    let length ← (do if ← keyword? "MAX" then return "MAX" else return toString (← natural))
    symbol ")"
    return some length
  else return none

/-- The time zone behind a time type. -/
def zone : Reading String := do
  if ← keyword? "WITH" then
    keywords ["TIME", "ZONE"]
    return " WITH TIME ZONE"
  else if ← keyword? "WITHOUT" then
    keywords ["TIME", "ZONE"]
    return " WITHOUT TIME ZONE"
  else return ""

/-- A character type: fixed, varying or a large object. -/
def characters (keyword : String) : Reading ColumnType := do
  if ← keyword? "VARYING" then return .sized (keyword ++ " VARYING") (← textLength?) ""
  else if ← keywords? ["LARGE", "OBJECT"] then
    return .sized (keyword ++ " LARGE OBJECT") (← measure?) ""
  else return .sized keyword (← textLength?) ""

/-- A member of an enumeration, spelled. -/
def member : Reading String := do
  let text ← literalText
  let spelled := enclosed '\x27' text
  if ← symbol? "=" then return spelled ++ " = " ++ toString (← integer) else return spelled

/-- The arguments of a type that is no built-in one; commas between them
are optional. -/
def arguments? : Reading (List String) := do
  if ← symbol? "(" then
    let items ← many (do
      match ← take with
      | .word w => return some [w]
      | .quotedWord w => return some [enclosed '\x60' w]
      | .number n _ => return some [n]
      | .text s => return some [s]
      | .symbol "," => return some []
      | .symbol ")" => modify (.symbol ")" :: ·); return none
      | _ => refuse)
    symbol ")"
    return items.flatten
  else return []

/-- The type behind its first keyword, or nothing when the keyword begins
no built-in type. -/
def builtinType? (keyword : String) : Reading (Option ColumnType) := do
  match IntegerKind.all.find? (·.keyword == keyword) with
  | some kind =>
    let width ← width?
    let unsigned ← keyword? "UNSIGNED"
    if !unsigned then let _ ← keyword? "SIGNED"
    return some (.integer kind width unsigned)
  | none =>
  if keyword == "DOUBLE" then
    if ← keyword? "PRECISION" then
      return some
        (.sized "DOUBLE PRECISION" none (ColumnType.unsignedMark (← keyword? "UNSIGNED")))
  match NumericKind.all.find? (·.keyword == keyword) with
  | some kind =>
    let digits ← digits
    let unsigned ← (if kind.hasUnsigned then keyword? "UNSIGNED" else return false)
    return some (.numeric kind digits unsigned)
  | none =>
  match ColumnType.simple.lookup keyword with
  | some spelling => return some (.sized spelling none "")
  | none =>
  if ColumnType.measured.contains keyword then
    return some (.sized keyword (← measure?) "")
  match keyword with
  | "REAL" => return some (.sized keyword none (ColumnType.unsignedMark (← keyword? "UNSIGNED")))
  | "VARCHAR" | "NVARCHAR" => return some (.sized keyword (← textLength?) "")
  | "CHARACTER" | "CHAR" => return some (← characters keyword)
  | "VARBINARY" => return some (.sized keyword (← byteLength?) "")
  | "BIT" =>
    let keyword := if ← keyword? "VARYING" then "BIT VARYING" else "BIT"
    return some (.sized keyword (← measure?) "")
  | "TIMESTAMP" | "TIME" =>
    let precision ← measure?
    return some (.sized keyword precision (← zone))
  | "ENUM" => return some (.members keyword (← parenthesized (commaSeparated member)))
  | "SET" =>
    return some (.members keyword
      ((← parenthesized (commaSeparated quotedText)).map (enclosed '\x27')))
  | "SIGNED" | "UNSIGNED" =>
    return some (.sized keyword none (if ← keyword? "INTEGER" then " INTEGER" else ""))
  | "INTERVAL" => return some .interval
  | _ => return none

/-- **A column type.** -/
def columnType : Reading ColumnType := do
  let builtin ← (do
    match ← peek with
    | some (.word w) =>
      let _ ← take
      match ← builtinType? (Text.asciiUpper w) with
      | some type => return some type
      | none => modify (.word w :: ·); return none
    | some (.quotedWord _) => return none
    | _ => refuse)
  match builtin with
  | some type => return type
  | none =>
    let path ← path
    return .custom path (← arguments?)

end Reading

end TableMapper.Ddl
