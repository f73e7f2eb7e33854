import TableMapper.Catalog.Column
import TableMapper.Catalog.JdbcType
import TableMapper.Ddl.Statement

/-!
# The metadata of a script

A script of table definitions is a metadata source. Every column definition
is a row of metadata, in which a later option of a column overrides an
earlier one. A primary key constraint replaces a key that columns declare,
and its columns, found by their exact names, may not be null.
-/

namespace TableMapper

namespace Ddl

/-- A table of a script. -/
structure SchemaTable where
  table : TableRef
  columns : List RawColumn
  /-- The names of the key columns, in key order. -/
  primaryKey : List String
  remarks : Option String
deriving Repr, DecidableEq

/-- The greatest number that is kept as a size or scale. -/
def greatestSize : Nat := UInt32.size - 1

/-- A size or scale as written, 0 when it is none. -/
def sizeOf (argument : List Char) : Nat :=
  let digits := match argument with
    | '+' :: rest => rest
    | cs => cs
  if digits.isEmpty || !digits.all Char.isDigit then 0
  else
    let n := digits.foldl (fun n c => 10 * n + (c.toNat - '0'.toNat)) 0
    if n ≤ greatestSize then n else 0

/-- The arguments of a type, between its first parentheses. -/
def typeArguments (typeName : String) : List (List Char) :=
  match Text.splitOnce ['('] typeName.toList with
  | some (_, rest) =>
    match Text.splitOnce [')'] rest with
    | some (arguments, _) => (Text.pieces (· == ',') arguments).map Text.trim
    | none => []
  | none => []

/-- **The size and scale of a type**, its first two numeric arguments. -/
def sizeAndScale (typeName : String) : Nat × Nat :=
  match typeArguments typeName with
  | [] => (0, 0)
  | [size] => (sizeOf size, 0)
  | size :: scale :: _ => (sizeOf size, sizeOf scale)

/-- The effect of a column option on the row of the column. -/
def ColumnOption.apply (row : RawColumn) : ColumnOption → RawColumn
  | .notNull | .primaryKey => { row with nullable := false }
  | .null => { row with nullable := true }
  | .default e => { row with defaultValue := some e.spelling }
  | .comment text => { row with remarks := some text }
  | .generated => { row with generated := true }
  | .autoIncrement => { row with autoIncrement := true }
  | .other => row

/-- The row of a column before its options. -/
def ColumnDefinition.bareRow (table : TableRef) (c : ColumnDefinition) : RawColumn :=
  let typeName := c.type.spelling
  let (size, scale) := sizeAndScale typeName
  { table
    name := c.name.text
    typeCode := (JdbcType.ofDeclared typeName).code
    typeName, size, scale
    nullable := true
    remarks := none
    defaultValue := none
    autoIncrement := false
    generated := false }

/-- **The row of a column.** -/
def ColumnDefinition.row (table : TableRef) (c : ColumnDefinition) : RawColumn :=
  c.options.foldl ColumnOption.apply (c.bareRow table)

/-- The name of a key column: a bare name without its quotes, anything else
as spelled. -/
def keyName : Expr → String
  | .column name => name.text
  | .other text => text

/-- The first row of a given name, which may not be null. -/
def forbidNull (name : String) : List RawColumn → List RawColumn
  | [] => []
  | row :: rest =>
    if row.name == name then { row with nullable := false } :: rest
    else row :: forbidNull name rest

/-- The key that the columns declare: the last one that declares itself. -/
def declaredKey (columns : List ColumnDefinition) : List String :=
  match columns.reverse.find? (·.options.contains .primaryKey) with
  | some c => [c.name.text]
  | none => []

/-- The effect of a constraint on the rows and the key of a table. -/
def TableConstraint.apply : List RawColumn × List String → TableConstraint →
    List RawColumn × List String
  | (rows, _), .primaryKey columns =>
    let key := columns.map keyName
    (key.foldl (fun rows name => forbidNull name rows) rows, key)
  | state, .other => state

/-- The table a dotted path refers to. A path of two parts names a catalog
and a table, any other the table only. -/
def tableRef : List Name → TableRef
  | [catalog, table] => ⟨some catalog.text, none, table.text⟩
  | parts => .plain ((parts.getLast?.map Name.text).getD "")

/-- **The metadata of a table definition.** -/
def TableDefinition.schema (t : TableDefinition) : SchemaTable :=
  let table := tableRef t.path
  let rows := t.columns.map (·.row table)
  let (columns, primaryKey) := t.constraints.foldl TableConstraint.apply (rows, declaredKey t.columns)
  { table, columns, primaryKey, remarks := t.comments.head? }

/-- **The tables of a script**, or nothing when it is malformed. -/
def schema? (script : String) : Option (List SchemaTable) :=
  (tableDefinitions? script).map (·.map TableDefinition.schema)

/-- A wanted catalog or schema admits an actual one: both are equal in any
case, or one is absent. -/
def admits : Option String → Option String → Bool
  | some wanted, some actual => Text.sameIgnoringCase wanted actual
  | _, _ => true

/-- The numbered columns of a key. Numbers are kept in 16 bits. -/
def keyColumns (names : List String) : List KeyColumn :=
  names.mapIdx fun i name => ⟨name, (i + 1) % UInt16.size⟩

/-- The first table with a reference. -/
def findTable (tables : List SchemaTable) (table : TableRef) : Except LookupFault SchemaTable :=
  match tables.find? (·.table == table) with
  | some found => .ok found
  | none => .error ⟨s!"table {table} not found"⟩

end Ddl

open Ddl in
/-- **Tables of a script as a metadata source.** -/
def MetadataSource.ofSchema (tables : List SchemaTable) : MetadataSource where
  columns catalog schema accept :=
    let admitted := tables.filter fun t =>
      admits catalog t.table.catalog && admits schema t.table.schema && accept t.table.name
    .ok (admitted.flatMap (·.columns))
  primaryKey table := (findTable tables table).map fun t => keyColumns t.primaryKey
  remarks table := (findTable tables table).map (·.remarks)

end TableMapper
