import TableMapper.Artifact.FragmentId
import TableMapper.Markup.Basic
import TableMapper.Settings.Basic
import TableMapper.Table.Model

/-!
# The reusable pieces of a mapper document

The result map and the pieces of SQL that the statements include. Text in
an `if` is part of the SQL only when its test holds, and a `choose` gives
one of two texts, so a piece leaves out what a null property says nothing
about, or puts a default in its place.
-/

namespace TableMapper.Fragments

open Markup (Element)

/-- The inclusion of a piece. -/
def inclusion (id : FragmentId) : Element :=
  (Element.named "include").attr "refid" id.name

/-- An empty piece of SQL. -/
def sql (id : FragmentId) : Element :=
  (Element.named "sql").attr "id" id.name

/-- A test for a property that is not null. -/
def isPresent (path : String) : String :=
  path ++ " != null"

/-- A text that counts when a property is not null. -/
def ifPresent (path text : String) : Element :=
  ((Element.named "if").attr "test" (isPresent path)).text text

/-- One text when a property is not null, another when it is. -/
def chooseDefault (path value fallback : String) : Element :=
  ((Element.named "choose").child
    (((Element.named "when").attr "test" (isPresent path)).text value)).child
    ((Element.named "otherwise").text fallback)

variable (table : TableModel)

/-- What a column is set to when its property is null, if it has such a
value. -/
def defaultValue? (c : ColumnModel) : Option String :=
  if table.isTimestamp c then some Settings.currentTime
  else if table.isSoftDelete c then table.spec.softDelete.map (·.aliveValue)
  else none

/-- The entry of a column in the result map. -/
def resultEntry (c : ColumnModel) : Element :=
  let entry :=
    (((Element.named (if c.primaryKey then "id" else "result")).attr "column" c.actualName).attr
      "jdbcType" c.jdbcType).attr "property" c.property
  match c.typeHandler with
  | some handler => entry.attr "typeHandler" handler
  | none => entry

/-- **The result map.** -/
def resultMap : Element :=
  (table.columns.map resultEntry).foldl (·.child ·)
    (((Element.named "resultMap").attr "id" FragmentId.resultMap.name).attr "type"
      table.names.recordType.qualifiedName)

/-- The columns as a selection lists them. -/
def baseColumn : Element :=
  (sql .baseColumn).text (", ".intercalate (table.columns.map (·.escapedName)))

/-- The predicate that keeps deleted rows out. -/
def alivePredicate? : Option String := do
  let softDelete ← table.spec.softDelete
  let column ← table.column? softDelete.column
  return column.escapedName ++ " = " ++ softDelete.aliveValue

/-- The predicate of a property of the query condition. -/
def fieldPredicate (f : QueryField) : Element :=
  let name := f.column.escapedName
  if f.multiValue then
    (((Element.named "if").attr "test"
      (isPresent f.property ++ " and " ++ f.property ++ ".size() > 0")).text
        ("and " ++ name ++ " in")).child
      ((((((Element.named "foreach").attr "collection" f.property).attr "item" "item").attr
        "open" "(").attr "close" ")").attr "separator" "," |>.text f.column.elementParameter)
  else ifPresent f.property ("and " ++ name ++ " = " ++ f.column.parameter none)

/-- **The filter**: the soft-delete predicate, then one optional predicate
per property of the query condition. -/
def condition : Element :=
  let start := match alivePredicate? table with
    | some predicate => (sql .condition).text predicate
    | none => sql .condition
  (table.queryFields.map fieldPredicate).foldl (·.child ·) start

/-- The assignment of a value to a column. -/
def assignment (c : ColumnModel) (value : String) : String :=
  c.escapedName ++ " = " ++ value ++ ","

/-- The assignment of a column in `set`. A modification timestamp that is
null becomes the current time. -/
def setEntry (c : ColumnModel) : Element :=
  let value := assignment c (c.parameter none)
  if table.isModifiedTimestamp c then
    chooseDefault (c.propertyPath none) value (assignment c Settings.currentTime)
  else ifPresent (c.propertyPath none) value

/-- **The assignments for one row.** -/
def set : Element :=
  (table.insertableColumns.map (setEntry table)).foldl (·.child ·) (sql .set)

/-- The name of the loop variable of batch statements. -/
def loopVariable : String :=
  "item"

/-- The assignment of a column in `batchSet`. -/
def batchSetEntry (c : ColumnModel) : Element :=
  ifPresent (c.propertyPath (some loopVariable))
    (assignment c (c.parameter (some loopVariable)))

/-- **The assignments for one item of a batch.** -/
def batchSet : Element :=
  (table.insertableColumns.map batchSetEntry).foldl (·.child ·) (sql .batchSet)

/-- Adds the value of a column to the values of an item. -/
def addValue (element : Element) (c : ColumnModel) : Element :=
  let value := c.parameter (some loopVariable) ++ ","
  match defaultValue? table c with
  | some fallback =>
    element.child (chooseDefault (c.propertyPath (some loopVariable)) value (fallback ++ ","))
  | none => element.text value

/-- **The values of one item of a batch**, in the order of the columns that
inserts write. -/
def batchSetValue : Element :=
  (sql .batchSetValue).child
    (table.insertableColumns.foldl (addValue table)
      ((Element.named "trim").attr "suffixOverrides" ","))

/-- The table as SQL writes it. -/
def tableName : Element :=
  (sql .tableName).text table.names.runtimeTable

/-- The limit of a page, if both paging fields are configured. -/
def pageLimit? : Option Element :=
  if table.rules.pagination then
    match table.spec.offsetField, table.spec.limitField with
    | some offset, some limit =>
      some ((sql .pageLimit).child
        (((Element.named "if").attr "test" (isPresent offset ++ " and " ++ isPresent limit)).text
          ("limit #\x7b" ++ offset ++ "\x7d, #\x7b" ++ limit ++ "\x7d")))
    | _, _ => none
  else none

end TableMapper.Fragments
