import TableMapper.Text.Ascii
import TableMapper.Text.Blank

/-!
# Keys the database assigns

A generated key names its column and the statement that reads the key:
literal SQL, the token of a database dialect, or `JDBC` for the driver's own
way of returning keys. An identity key comes into being with the insert, any
other is fetched before it.
-/

namespace TableMapper

/-- How a database-assigned key is read. -/
structure GeneratedKey where
  column : String
  /-- SQL, a dialect token, or `JDBC`. -/
  statement : String
  identity : Bool
  /-- `pre` or `post`; follows from `identity` when absent. -/
  timing : Option String
  /-- The column is matched with regard to case. -/
  delimited : Bool
deriving Repr, DecidableEq

namespace GeneratedKey

/-- The statement a dialect token stands for. -/
def dialectStatement (token : String) : Option String :=
  match Text.asciiUpper token with
  | "DB2" | "CLOUDSCAPE" | "DERBY" => some "VALUES IDENTITY_VAL_LOCAL()"
  | "MYSQL" => some "SELECT LAST_INSERT_ID()"
  | "SQLSERVER" => some "SELECT SCOPE_IDENTITY()"
  | "HSQLDB" => some "CALL IDENTITY()"
  | "SYBASE" => some "SELECT @@IDENTITY"
  | "DB2_MF" => some "SELECT IDENTITY_VAL_LOCAL() FROM SYSIBM.SYSDUMMY1"
  | "INFORMIX" => some "select dbinfo('sqlca.sqlerrd1') from systables where tabid=1"
  | _ => none

/-- The statement with a dialect token resolved. -/
def resolvedStatement (key : GeneratedKey) : String :=
  (dialectStatement key.statement).getD key.statement

/-- The driver returns the key. -/
def usesDriver (key : GeneratedKey) : Bool :=
  Text.sameIgnoringCase key.statement "JDBC"

/-- **The insert itself produces the key.** -/
def isIdentity (key : GeneratedKey) : Bool :=
  key.identity || key.usesDriver

/-- The key is read after the insert. -/
def runsAfterInsert (key : GeneratedKey) : Bool :=
  match key.timing with
  | some timing => Text.sameIgnoringCase timing "post"
  | none => key.isIdentity

/-- The key is the one of a column. -/
def matchesColumn (key : GeneratedKey) (column : String) : Bool :=
  if key.delimited then key.column == column else Text.sameIgnoringCase key.column column

end GeneratedKey

end TableMapper
