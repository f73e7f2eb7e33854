import TableMapper.Catalog.Column
import TableMapper.Merge.Fault
import TableMapper.Settings.TableSpec

/-!
# Warnings of a run

What does not stop a run is reported as a warning, in the order in which it
was found.
-/

namespace TableMapper

/-- The part a specification gives to a column. -/
inductive ColumnRole
  | filter
  | softDelete
  | created
  | modified
deriving Repr, DecidableEq

/-- A role as messages name it. -/
def ColumnRole.description : ColumnRole → String
  | .filter => "a filter"
  | .softDelete => "the soft-delete column"
  | .created => "the creation timestamp column"
  | .modified => "the modification timestamp column"

/-- What a run can warn of. -/
inductive Warning
  | columnsUnreadable (spec : TableSpec) (fault : LookupFault)
  | noTable (spec : TableSpec)
  | severalTables (spec : TableSpec) (tables : List TableRef)
  | ignoredMissing (column : String) (table : TableRef)
  | overrideMissing (column : String) (table : TableRef)
  | keyMissing (column : String) (table : TableRef)
  | unsupportedType (typeName column : String) (table : TableRef) (property : String)
  | roleMissing (column : String) (role : ColumnRole) (table : TableRef)
  | keyUnreadable (table : TableRef) (fault : LookupFault)
  | remarksUnreadable (table : TableRef) (fault : LookupFault)
  | noColumns (table : TableRef)
  | onlyLargeObjects (table : TableRef)
  | reservedProperty (column : String) (table : TableRef) (property : String)
  | noPrimaryKey (table : TableRef)
  | directory (path file : String)
  | unmerged (fault : MergeFault)
  | overwritten (path : String)
  | renamed (path saved : String)
  | suffixesExhausted (path : String)
  | note (text : String)
deriving Repr, DecidableEq

/-- A specification as messages show it. -/
def TableSpec.describe (spec : TableSpec) : String :=
  "catalog " ++ nameOrNone spec.catalog ++ ", schema " ++ nameOrNone spec.schema ++
    ", table " ++ spec.tableName

/-- **The wording of a warning.** What the operating system says of a
directory is not part of it. -/
def Warning.message : Warning → String
  | .columnsUnreadable spec fault =>
    "Cannot read columns for table " ++ spec.describe ++ ": " ++ fault.message
  | .noTable spec =>
    "Table configuration " ++ spec.describe ++ " did not resolve to any tables"
  | .severalTables spec tables =>
    "Table configuration " ++ spec.describe ++ " matched more than one table (" ++
      ", ".intercalate (tables.map (·.display)) ++ ")"
  | .ignoredMissing column table =>
    "Column " ++ column ++ ", specified as ignored in table " ++ table.display ++
      ", does not exist in the table"
  | .overrideMissing column table =>
    "Column " ++ column ++ ", specified as an override in table " ++ table.display ++
      ", does not exist in the table"
  | .keyMissing column table =>
    "Column " ++ column ++ ", specified as the generated key in table " ++ table.display ++
      ", does not exist in the table"
  | .unsupportedType typeName column table property =>
    "Unsupported data type " ++ typeName ++ " in column " ++ column ++ " of table " ++
      table.display ++ "; property " ++ property ++ " will be java.lang.Object"
  | .roleMissing column role table =>
    "Column " ++ column ++ ", specified as " ++ role.description ++ " in table " ++
      table.display ++
      ", does not exist in the table or is ignored; it will not be generated"
  | .keyUnreadable table fault =>
    "Cannot read primary key for table " ++ table.display ++ ": " ++ fault.message
  | .remarksUnreadable table fault =>
    "Cannot read remarks for table " ++ table.display ++ ": " ++ fault.message
  | .noColumns table =>
    "Table " ++ table.display ++
      " has no columns left after ignored columns were removed, it will be skipped"
  | .onlyLargeObjects table =>
    "Table " ++ table.display ++
      " contains only large object columns and has no primary key, it will be skipped"
  | .reservedProperty column table property =>
    "Column " ++ column ++ " in table " ++ table.display ++
      " maps to the Java reserved word \"" ++ property ++ "\"; add a column override"
  | .noPrimaryKey table =>
    "Table " ++ table.display ++ " has no primary key; update statements are not generated"
  | .directory path file =>
    "Cannot resolve target directory: " ++ path ++ "; skipping " ++ file
  | .unmerged fault => fault.message ++ "; existing file left unchanged"
  | .overwritten path => "Existing file " ++ path ++ " was overwritten"
  | .renamed path saved =>
    "Existing file " ++ path ++
      " was not overwritten, the generated file is saved as " ++ saved
  | .suffixesExhausted path =>
    "Cannot find a free file name for " ++ path ++ " (tried .1 through .999)"
  | .note text => text

end TableMapper
