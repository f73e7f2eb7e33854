import TableMapper.Catalog.Column
import TableMapper.Catalog.JdbcType
import TableMapper.Unit.JavaType

/-!
# Java types for columns

Each column type has a Java type for its values. Decimal columns without
places are narrowed to the smallest integral type for their declared
precision: four digits fit a `Short`, nine an `Integer`, eighteen a `Long`.
A precision that is not declared is 0.
-/

namespace TableMapper

/-- How column types are resolved. -/
structure TypeOptions where
  /-- Decimals are never narrowed. -/
  forceBigDecimals : Bool
  /-- Dates and times become `java.time` types. -/
  useJavaTime : Bool
deriving Repr, DecidableEq

/-- A Java type, and the name parameters of the column are bound with. -/
structure ResolvedType where
  javaType : JavaType
  jdbcType : String
deriving Repr, BEq

/-- The type of a column that is not resolved. -/
def ResolvedType.untyped : ResolvedType :=
  ⟨.named "java.lang.Object", JdbcType.other.name⟩

namespace TypeOptions

/-- The type of a decimal with a precision and a scale. -/
def decimalType (options : TypeOptions) (precision scale : Nat) : String :=
  if scale > 0 || precision > 18 || options.forceBigDecimals then "java.math.BigDecimal"
  else if precision > 9 then "java.lang.Long"
  else if precision > 4 then "java.lang.Integer"
  else "java.lang.Short"

/-- The Java type for a column type; none for those left to the user. -/
def javaName? (options : TypeOptions) (type : JdbcType) (precision scale : Nat) :
    Option String :=
  match type with
  | .bigint => some "java.lang.Long"
  | .binary | .blob | .longVarbinary | .varbinary => some "byte[]"
  | .bit | .boolean => some "java.lang.Boolean"
  | .char | .clob | .longNVarchar | .longVarchar | .nChar | .nClob | .nVarchar | .varchar =>
    some "java.lang.String"
  | .date => some (if options.useJavaTime then "java.time.LocalDate" else "java.util.Date")
  | .time => some (if options.useJavaTime then "java.time.LocalTime" else "java.util.Date")
  | .timestamp =>
    some (if options.useJavaTime then "java.time.LocalDateTime" else "java.util.Date")
  | .timeWithTimezone => if options.useJavaTime then some "java.time.OffsetTime" else none
  | .timestampWithTimezone =>
    if options.useJavaTime then some "java.time.OffsetDateTime" else none
  | .decimal | .numeric => some (options.decimalType precision scale)
  | .double | .float => some "java.lang.Double"
  | .real => some "java.lang.Float"
  | .integer | .tinyint => some "java.lang.Integer"
  | .smallint => some "java.lang.Short"
  | .array | .datalink | .distinct | .javaObject | .null | .ref | .struct =>
    some "java.lang.Object"
  | .other => none

/-- **The type of a column**, if its code has one. -/
def resolve? (options : TypeOptions) (column : RawColumn) : Option ResolvedType := do
  let type ← JdbcType.ofCode? column.typeCode
  let java ← options.javaName? type column.size column.scale
  return ⟨.named java, type.name⟩

end TypeOptions

end TableMapper
