import TableMapper.Settings.Basic
import TableMapper.Table.Column

/-!
# Table models

What is known of a table when artifacts are generated from it: its columns,
the names of its artifacts, the statements wanted, and the properties of its
query condition. Names are computed once, here.
-/

namespace TableMapper

/-- The names of the artifacts of a table. -/
structure ArtifactNames where
  domainObject : String
  recordType : JavaType
  queryType : JavaType
  mapperType : JavaType
  /-- The namespace of the mapper document: the qualified mapper name. -/
  mapperNamespace : String
  mapperFile : String
  /-- The table as SQL writes it. -/
  runtimeTable : String
deriving Repr, BEq

/-- The statements and clauses that apply to a table. -/
structure Rules where
  insert : Bool
  batchInsert : Bool
  count : Bool
  getByQc : Bool
  list : Bool
  update : Bool
  batchUpdate : Bool
  orderBy : Bool
  pagination : Bool
deriving Repr, DecidableEq

/-- **The rules of a specification.** Updates need a primary key, paging
both of its fields. -/
def Rules.ofSpec (spec : TableSpec) (hasPrimaryKey : Bool) : Rules where
  insert := spec.enableInsert
  batchInsert := spec.enableBatchInsert
  count := spec.enableCount
  getByQc := spec.enableGetByQc
  list := spec.enableList
  update := spec.enableUpdate && hasPrimaryKey
  batchUpdate := spec.enableBatchUpdate && hasPrimaryKey
  orderBy := spec.orderByField.isSome
  pagination := spec.paginates

/-- A property of the query condition. -/
structure QueryField where
  column : ColumnModel
  property : String
  javaType : JavaType
  /-- Compared with a list of values. -/
  multiValue : Bool
deriving Repr, BEq

/-- The property for one value of a column, or for a list of them. -/
def QueryField.ofColumn (column : ColumnModel) (multiValue : Bool) : QueryField :=
  if multiValue then
    ⟨column, Naming.listProperty column.property, .listOf column.javaType, true⟩
  else
    ⟨column, column.property, column.javaType, false⟩

/-- The name is that of a column, in any case. -/
def ColumnModel.isNamed (c : ColumnModel) (name : String) : Bool :=
  Text.sameIgnoringCase c.actualName name

/-- The specification makes the column its soft-delete column. -/
def TableSpec.isSoftDelete (spec : TableSpec) (c : ColumnModel) : Bool :=
  spec.softDelete.any fun s => c.isNamed s.column

/-- The columns compared in conditions: those of the filters, or every
column when there are none. -/
def TableSpec.filterColumns (spec : TableSpec) (columns : List ColumnModel) :
    List (ColumnModel × Bool) :=
  if spec.filters.isEmpty then columns.map fun c => (c, false)
  else
    spec.filters.filterMap fun f =>
      (columns.find? (·.isNamed f.column)).map fun c => (c, f.multiValue)

/-- **The properties of the query condition.** The soft-delete column is
compared in every case and never optionally, so it has none. -/
def TableSpec.queryFields (spec : TableSpec) (columns : List ColumnModel) : List QueryField :=
  ((spec.filterColumns columns).filter fun (c, _) => !spec.isSoftDelete c).map
    fun (c, multiValue) => .ofColumn c multiValue

/-- The suffix of query condition classes. -/
def ArtifactNames.querySuffix : String :=
  "QC"

/-- The suffix of mapper interfaces. -/
def ArtifactNames.mapperSuffix : String :=
  "Mapper"

/-- The names for a domain object. -/
def ArtifactNames.ofDomainObject (settings : Settings) (domainObject runtimeTable : String) :
    ArtifactNames :=
  let mapper := settings.clientPackage ++ "." ++ domainObject ++ mapperSuffix
  { domainObject
    recordType := .named (settings.modelPackage ++ "." ++ domainObject)
    queryType := .named (settings.queryPackage ++ "." ++ domainObject ++ querySuffix)
    mapperType := .named mapper
    mapperNamespace := mapper
    mapperFile := domainObject ++ mapperSuffix ++ ".xml"
    runtimeTable }

/-- Everything the generators read of one physical table. -/
structure TableModel where
  table : TableRef
  remarks : Option String
  columns : List ColumnModel
  queryFields : List QueryField
  names : ArtifactNames
  rules : Rules
  spec : TableSpec
deriving Repr, BEq

/-- The domain object of a table: the configured name or the one derived
from the table, after renaming. -/
def TableSpec.domainObject (spec : TableSpec) (table : TableRef) :
    Except Pattern.Fault String := do
  let name := spec.domainObjectName.getD (Naming.domainObject table.name)
  match spec.domainObjectRenaming with
  | none => return name
  | some rule => return (← rule.compile).apply name

namespace TableModel

/-- **The model of a table with resolved columns.** It fails only on a
renaming rule that cannot be read. -/
def ofColumns (settings : Settings) (spec : TableSpec) (table : TableRef)
    (columns : List ColumnModel) (remarks : Option String) :
    Except Pattern.Fault TableModel := do
  let domainObject ← spec.domainObject table
  return {
    table
    remarks
    columns
    queryFields := spec.queryFields columns
    names := .ofDomainObject settings domainObject (table.runtimeName spec.delimitIdentifiers)
    rules := .ofSpec spec (columns.any (·.primaryKey))
    spec }

/-- The column with a name, in any case. -/
def column? (m : TableModel) (name : String) : Option ColumnModel :=
  m.columns.find? (·.isNamed name)

/-- **The key columns, in the order of the key.** -/
def primaryKeyColumns (m : TableModel) : List ColumnModel :=
  (m.columns.filter (·.primaryKey)).mergeSort fun a b => a.keySequence ≤ b.keySequence

/-- The columns that are neither key nor large object. -/
def baseColumns (m : TableModel) : List ColumnModel :=
  m.columns.filter fun c => !c.primaryKey && !c.largeObject

/-- The large objects. -/
def largeObjectColumns (m : TableModel) : List ColumnModel :=
  m.columns.filter (·.largeObject)

/-- The columns that inserts and updates write. -/
def insertableColumns (m : TableModel) : List ColumnModel :=
  m.columns.filter (!·.isGenerated)

/-- The column of the generated key. -/
def generatedKeyColumn? (m : TableModel) : Option ColumnModel :=
  m.columns.find? (·.keyGeneration != .notGenerated)

/-- The soft-delete column. -/
def isSoftDelete (m : TableModel) (c : ColumnModel) : Bool :=
  m.spec.isSoftDelete c

/-- The creation or the modification timestamp. -/
def isTimestamp (m : TableModel) (c : ColumnModel) : Bool :=
  m.spec.createdColumn.any (c.isNamed ·) || m.spec.modifiedColumn.any (c.isNamed ·)

/-- The modification timestamp. -/
def isModifiedTimestamp (m : TableModel) (c : ColumnModel) : Bool :=
  m.spec.modifiedColumn.any (c.isNamed ·)

end TableModel

end TableMapper
