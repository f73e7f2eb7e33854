import TableMapper.Run.Warning
import TableMapper.Table.Model
import TableMapper.Table.TypeResolution

/-!
# Introspection

Introspection turns metadata rows into table models. The rows of a
specification are grouped by table, in the order of the tables; for each
table the rows that no ignore rule hits become columns, the key rows mark
the primary key, and the model is completed with remarks and names.

A look-up that fails degrades the result and is reported as a warning. Only
a pattern that cannot be read is an error.
-/

namespace TableMapper

/-- A result with the warnings found on the way. -/
structure Warned (α : Type) where
  warnings : List Warning
  value : α

/-- A result without warnings. -/
def Warned.quiet {α : Type} (value : α) : Warned α :=
  ⟨[], value⟩

namespace Introspection

/-! ## Grouping rows -/

/-- The rows of each table, in ascending order of the tables. -/
abbrev Groups := List (TableRef × List RawColumn)

/-- A row added behind the other rows of its table. -/
def addRow (row : RawColumn) : Groups → Groups
  | [] => [(row.table, [row])]
  | (table, rows) :: rest =>
    match row.table.compare table with
    | .lt => (row.table, [row]) :: (table, rows) :: rest
    | .eq => (table, rows ++ [row]) :: rest
    | .gt => (table, rows) :: addRow row rest

/-- **Rows grouped by table.** -/
def groupRows (rows : List RawColumn) : Groups :=
  rows.foldl (fun groups row => addRow row groups) []

/-! ## Columns -/

variable (settings : Settings) (spec : TableSpec) (table : TableRef)

/-- How column types are resolved under the settings. -/
def typeOptions : TypeOptions :=
  ⟨settings.forceBigDecimals, settings.useJavaTime⟩

/-- The property of a row: the overridden one, or the one derived from the
renamed column. -/
def propertyOf (renamer : Option Renamer) (row : RawColumn) : String :=
  match (spec.overrideFor? row.name).bind (·.property) with
  | some property => property
  | none =>
    let renamed := (renamer.map (·.apply row.name)).getD row.name
    Naming.deriveProperty spec.propertyNaming renamed row.remarks

/-- How the generated key of the specification concerns a column. -/
def keyGenerationOf (column : String) : KeyGeneration :=
  match spec.generatedKey with
  | some key =>
    if key.matchesColumn column then if key.isIdentity then .identity else .sequence
    else .notGenerated
  | none => .notGenerated

/-- **A row resolved to a column.** What an override fixes comes before what
is derived. -/
def resolveColumn (renamer : Option Renamer) (row : RawColumn) : ColumnModel :=
  let chosen := spec.overrideFor? row.name
  let resolved := ((typeOptions settings).resolve? row).getD .untyped
  let jdbcType := Text.asciiUpper ((chosen.bind (·.jdbcType)).getD resolved.jdbcType)
  { actualName := row.name
    property := propertyOf spec renamer row
    javaType :=
      match chosen.bind (·.javaType) with
      | some name => .named name
      | none => resolved.javaType
    jdbcType
    nullable := row.nullable
    primaryKey := false
    keySequence := 0
    largeObject := (JdbcType.ofName? jdbcType).any (·.isLargeObject)
    keyGeneration := keyGenerationOf spec row.name
    generatedAlways := row.generated || chosen.any (·.generatedAlways)
    typeHandler := chosen.bind (·.typeHandler)
    properties := (chosen.map (·.properties)).getD []
    remarks := row.remarks
    defaultValue := row.defaultValue
    length := row.size
    scale := row.scale
    delimited := chosen.any (·.delimited) }

/-- The warning about a row whose type is neither resolved nor
overridden. -/
def typeWarning (renamer : Option Renamer) (row : RawColumn) : List Warning :=
  if ((typeOptions settings).resolve? row).isNone &&
      ((spec.overrideFor? row.name).bind (·.javaType)).isNone then
    [.unsupportedType row.typeName row.name table (propertyOf spec renamer row)]
  else []

/-! ## What the specification names in vain -/

/-- The warnings about columns the specification names that the table does
not have. -/
def missingWarnings (rows : List RawColumn) : List Warning :=
  ((spec.ignoredColumns.filter fun c => !rows.any fun r => c.matchesColumn r.name).map
    fun c => .ignoredMissing c.column table) ++
  ((spec.columnOverrides.filter fun o => !rows.any fun r => o.matchesColumn r.name).map
    fun o => .overrideMissing o.column table) ++
  ((spec.generatedKey.toList.filter fun k => !rows.any fun r => k.matchesColumn r.name).map
    fun k => .keyMissing k.column table)

/-- The columns that play a role of their own, and the roles. -/
def roles : List (String × ColumnRole) :=
  (spec.filters.map fun f => (f.column, .filter)) ++
  (spec.softDelete.toList.map fun s => (s.column, .softDelete)) ++
  (spec.createdColumn.toList.map fun c => (c, .created)) ++
  (spec.modifiedColumn.toList.map fun c => (c, .modified))

/-- The warnings about roles whose column is not among those kept. -/
def roleWarnings (columns : List ColumnModel) : List Warning :=
  ((roles spec).filter fun (name, _) => !columns.any (·.isNamed name)).map
    fun (name, role) => .roleMissing name role table

/-! ## Primary key and remarks -/

/-- The first column a key row names becomes a key column. -/
def markKey (key : KeyColumn) : List ColumnModel → List ColumnModel
  | [] => []
  | c :: rest =>
    if c.isNamed key.column then
      { c with primaryKey := true, keySequence := key.sequence } :: rest
    else c :: markKey key rest

/-- Marks every key row in turn. -/
def markKeys (keys : List KeyColumn) (columns : List ColumnModel) : List ColumnModel :=
  keys.foldl (fun columns key => markKey key columns) columns

variable (source : MetadataSource)

/-- The columns with the primary key of the table marked. -/
def withPrimaryKey (columns : List ColumnModel) : Warned (List ColumnModel) :=
  match source.primaryKey table with
  | .ok keys => .quiet (markKeys keys columns)
  | .error fault => ⟨[.keyUnreadable table fault], columns⟩

/-- The remarks of the table. -/
def remarksOf : Warned (Option String) :=
  match source.remarks table with
  | .ok remarks => .quiet remarks
  | .error fault => ⟨[.remarksUnreadable table fault], none⟩

/-! ## Tables -/

/-- Why a table with these columns has no model: none is left, or there are
large objects only and no key among them. -/
def skipWarning? (columns : List ColumnModel) : Option Warning :=
  if columns.isEmpty then some (.noColumns table)
  else if !columns.any (·.primaryKey) && columns.all (·.largeObject) then
    some (.onlyLargeObjects table)
  else none

/-- The warnings about properties that are reserved words. -/
def reservedWarnings (columns : List ColumnModel) : List Warning :=
  (columns.filter fun c => Naming.isReserved c.property).map fun c =>
    .reservedProperty c.actualName table c.property

/-- **The model of one table**, unless it is skipped. -/
def buildTable (rows : List RawColumn) : Except Pattern.Fault (Warned (Option TableModel)) := do
  let renamer ← spec.columnRenaming.mapM (·.compile)
  let ignores ← spec.ignoreRules
  let kept := rows.filter fun r => !ignores.ignores r.name
  let resolved := kept.map (resolveColumn settings spec renamer)
  let keyed := withPrimaryKey table source resolved
  let remarks := remarksOf table source
  let warnings :=
    missingWarnings spec table rows ++
    kept.flatMap (typeWarning settings spec table renamer) ++
    roleWarnings spec table resolved ++ keyed.warnings ++ remarks.warnings
  match skipWarning? table keyed.value with
  | some skipped => return ⟨warnings ++ [skipped], none⟩
  | none =>
    let model ← TableModel.ofColumns settings spec table keyed.value remarks.value
    return ⟨warnings ++ reservedWarnings table keyed.value, some model⟩

/-- The models of several tables. -/
def buildTables : Groups → Except Pattern.Fault (Warned (List TableModel))
  | [] => .ok (.quiet [])
  | (table, rows) :: rest => do
    let first ← buildTable settings spec table source rows
    let others ← buildTables rest
    return ⟨first.warnings ++ others.warnings, first.value.toList ++ others.value⟩

/-- The warning about a specification without wildcard that names several
tables. -/
def severalWarning (groups : Groups) : List Warning :=
  if groups.length > 1 && !spec.hasWildcard then
    [.severalTables spec (groups.map (·.1))]
  else []

/-- **The models of the tables a specification selects.** -/
def introspect : Except Pattern.Fault (Warned (List TableModel)) :=
  match source.columns spec.catalog spec.schema spec.matchesTable with
  | .error fault => .ok ⟨[.columnsUnreadable spec fault], []⟩
  | .ok rows =>
    match groupRows rows with
    | [] => .ok ⟨[.noTable spec], []⟩
    | groups => do
      let built ← buildTables settings spec source groups
      return ⟨severalWarning spec groups ++ built.warnings, built.value⟩

/-- The models of several specifications, in their order. -/
def introspectAll : List TableSpec → Except Pattern.Fault (Warned (List TableModel))
  | [] => .ok (.quiet [])
  | spec :: rest => do
    let first ← introspect settings spec source
    let others ← introspectAll rest
    return ⟨first.warnings ++ others.warnings, first.value ++ others.value⟩

end Introspection

end TableMapper
