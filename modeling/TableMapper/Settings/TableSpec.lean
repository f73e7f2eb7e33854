import TableMapper.Naming
import TableMapper.Pattern.Reader
import TableMapper.Pattern.Template
import TableMapper.Settings.GeneratedKey
import TableMapper.Settings.Like

/-!
# Table specifications

A specification selects tables by name and says how they are generated:
which columns are left out or overridden, how names are derived, which
columns play a role of their own, and which statements are wanted.
-/

namespace TableMapper

/-- A column left out of every artifact. -/
structure IgnoredColumn where
  column : String
  /-- Matched with regard to case. -/
  delimited : Bool
deriving Repr, DecidableEq

/-- The rule names a column. -/
def IgnoredColumn.matchesColumn (c : IgnoredColumn) (column : String) : Bool :=
  if c.delimited then c.column == column else Text.sameIgnoringCase c.column column

/-- Columns left out because a pattern matches them, with exceptions. -/
structure IgnoredPattern where
  pattern : String
  except : List String
deriving Repr, DecidableEq

/-- What is fixed by hand for one column. -/
structure ColumnOverride where
  column : String
  property : Option String
  javaType : Option String
  jdbcType : Option String
  typeHandler : Option String
  /-- The database computes the column. -/
  generatedAlways : Bool
  /-- Matched with regard to case, and quoted in SQL. -/
  delimited : Bool
  /-- Further properties, in the order of their keys. -/
  properties : List (String × String)
deriving Repr, DecidableEq

/-- The override names a column. -/
def ColumnOverride.matchesColumn (o : ColumnOverride) (column : String) : Bool :=
  if o.delimited then o.column == column else Text.sameIgnoringCase o.column column

/-- Search and replace on a name. -/
structure RenamingRule where
  search : String
  replace : String
deriving Repr, DecidableEq

/-- A renaming rule whose pattern has been read. -/
structure Renamer where
  search : Pattern.Compiled
  replace : String

/-- Reads the pattern of a rule. -/
def RenamingRule.compile (rule : RenamingRule) : Except Pattern.Fault Renamer := do
  return ⟨← Pattern.compile rule.search, rule.replace⟩

/-- The name after renaming. -/
def Renamer.apply (r : Renamer) (name : String) : String :=
  r.search.replaceAll name r.replace

/-- The column that marks deleted rows. -/
structure SoftDelete where
  column : String
  /-- The SQL literal that means "not deleted". -/
  aliveValue : String
deriving Repr, DecidableEq

/-- A column of the query condition. -/
structure FilterColumn where
  column : String
  /-- Compared with a list of values. -/
  multiValue : Bool
deriving Repr, DecidableEq

/-- A configured table, or pattern of tables. -/
structure TableSpec where
  catalog : Option String := none
  schema : Option String := none
  tableName : String
  domainObjectName : Option String := none
  enableInsert : Bool := true
  enableBatchInsert : Bool := true
  enableCount : Bool := true
  enableGetByQc : Bool := true
  enableList : Bool := true
  enableUpdate : Bool := true
  enableBatchUpdate : Bool := true
  ignoredColumns : List IgnoredColumn := []
  ignoredPatterns : List IgnoredPattern := []
  columnOverrides : List ColumnOverride := []
  generatedKey : Option GeneratedKey := none
  domainObjectRenaming : Option RenamingRule := none
  columnRenaming : Option RenamingRule := none
  propertyNaming : Naming.Mode := .camelCase
  softDelete : Option SoftDelete := none
  /-- Filled with the current time on batch insert. -/
  createdColumn : Option String := none
  /-- Filled with the current time on insert and update. -/
  modifiedColumn : Option String := none
  /-- The columns of the query condition; every column when empty. -/
  filters : List FilterColumn := []
  orderByField : Option String := none
  offsetField : Option String := none
  limitField : Option String := none
  /-- Identifiers are quoted and table names matched with regard to case. -/
  delimitIdentifiers : Bool := false
  /-- `%` and `_` in the table name stand for themselves. -/
  wildcardEscaping : Bool := false
deriving Repr, DecidableEq

namespace TableSpec

/-- Every statement for the tables a name or pattern selects. -/
def named (tableName : String) : TableSpec :=
  { tableName }

/-- Paging needs both an offset and a limit. -/
def paginates (spec : TableSpec) : Bool :=
  spec.offsetField.isSome && spec.limitField.isSome

/-- The table name has a wildcard that counts as one. -/
def hasWildcard (spec : TableSpec) : Bool :=
  !spec.wildcardEscaping && spec.tableName.toList.any fun c => c == '%' || c == '_'

/-- **A physical table is selected.** -/
def matchesTable (spec : TableSpec) (name : String) : Bool :=
  if spec.wildcardEscaping then
    if spec.delimitIdentifiers then spec.tableName == name
    else Text.sameIgnoringCase spec.tableName name
  else Like.matchesName spec.tableName name (!spec.delimitIdentifiers)

/-- The override of a column: the first that names it. -/
def overrideFor? (spec : TableSpec) (column : String) : Option ColumnOverride :=
  spec.columnOverrides.find? (·.matchesColumn column)

end TableSpec

/-- The ignore rules of a specification, their patterns read. -/
structure IgnoreRules where
  columns : List IgnoredColumn
  patterns : List (Pattern.Compiled × List String)

/-- Reads the patterns of the ignore rules. -/
def TableSpec.ignoreRules (spec : TableSpec) : Except Pattern.Fault IgnoreRules := do
  let patterns ← spec.ignoredPatterns.mapM fun p => do
    return (← Pattern.compile p.pattern, p.except)
  return ⟨spec.ignoredColumns, patterns⟩

/-- **A column is left out** when a rule names it, or a pattern matches it
and does not except it. -/
def IgnoreRules.ignores (rules : IgnoreRules) (column : String) : Bool :=
  rules.columns.any (·.matchesColumn column) ||
    rules.patterns.any fun (pattern, except) =>
      pattern.matches column && !except.any (Text.sameIgnoringCase · column)

end TableMapper
