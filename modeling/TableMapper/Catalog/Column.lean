import TableMapper.Catalog.TableRef

/-!
# Metadata rows

What a metadata source reports of a database: a row for every column, the
columns of a primary key with their places in the key, and table comments.
A source answers three kinds of look-up, and each of them may fail.
-/

namespace TableMapper

/-- One row of column metadata. -/
structure RawColumn where
  table : TableRef
  name : String
  /-- The code of the column type. -/
  typeCode : Int
  /-- The type as declared. -/
  typeName : String
  /-- The declared length or precision, 0 when absent. -/
  size : Nat
  /-- The declared scale, 0 when absent. -/
  scale : Nat
  nullable : Bool
  remarks : Option String
  defaultValue : Option String
  autoIncrement : Bool
  /-- The database computes the value. -/
  generated : Bool
deriving Repr, DecidableEq

/-- One row of key metadata. -/
structure KeyColumn where
  column : String
  /-- The place in the key, counted from 1. -/
  sequence : Nat
deriving Repr, DecidableEq

/-- A look-up that failed. -/
structure LookupFault where
  reason : String
deriving Repr, DecidableEq

/-- How a failed look-up is reported. -/
def LookupFault.message (e : LookupFault) : String :=
  "Metadata lookup failed: " ++ e.reason

/-- **A metadata source.** -/
structure MetadataSource where
  /-- The rows of every table in a catalog and schema whose name is
  accepted. -/
  columns : Option String → Option String → (String → Bool) → Except LookupFault (List RawColumn)
  /-- The key rows of a table, in any order. -/
  primaryKey : TableRef → Except LookupFault (List KeyColumn)
  /-- The comment of a table. -/
  remarks : TableRef → Except LookupFault (Option String)

end TableMapper
