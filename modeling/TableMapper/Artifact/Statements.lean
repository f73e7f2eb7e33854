import TableMapper.Artifact.Fragments

/-!
# The statements of a mapper document

Selections share one filter. Inserts and updates of one row set the columns
whose properties are not null; batch statements repeat a piece for every
item of a list. Updates compare the whole primary key.
-/

namespace TableMapper.Statements

open Markup (Element)

/-- The type of the parameter of batch statements. -/
def listType : String :=
  "java.util.List"

variable (table : TableModel)

/-- The filter as a clause. -/
def whereCondition : Element :=
  (Element.named "where").child (Fragments.inclusion .condition)

/-- Assignments as a clause. -/
def setOf (id : FragmentId) : Element :=
  (Element.named "set").child (Fragments.inclusion id)

/-- The comparison of a key column with its own parameter. -/
def keyComparison (owner : Option String) (c : ColumnModel) : String :=
  c.escapedName ++ " = " ++ c.parameter owner

/-- **The condition over every key column**, in key order. -/
def keyPredicate (owner : Option String) : String :=
  "where " ++ " and ".intercalate (table.primaryKeyColumns.map (keyComparison owner))

/-- The selection of rows that the filter admits. -/
def selectFrom (id : FragmentId) : Element :=
  ((((((((Element.named "select").attr "id" id.name).attr "parameterType"
    table.names.queryType.qualifiedName).attr "resultMap" FragmentId.resultMap.name).text
      "select").child (Fragments.inclusion .baseColumn)).text "from").child
        (Fragments.inclusion .tableName)).child whereCondition

/-- **Every row the filter admits**, ordered and paged on demand. -/
def list? : Option Element :=
  if table.rules.list then
    let element := selectFrom table .list
    let element := match table.spec.orderByField with
      | some field =>
        if table.rules.orderBy then
          element.child
            (((Element.named "if").attr "test" (Fragments.isPresent field)).text
              ("order by $\x7b" ++ field ++ "\x7d"))
        else element
      | none => element
    some (if table.rules.pagination then element.child (Fragments.inclusion .pageLimit) else element)
  else none

/-- The first row the filter admits. -/
def getByQc? : Option Element :=
  if table.rules.getByQc then some ((selectFrom table .getByQc).text "limit 1") else none

/-- The number of rows the filter admits. -/
def count? : Option Element :=
  if table.rules.count then
    some
      ((((((((Element.named "select").attr "id" FragmentId.count.name).attr "parameterType"
        table.names.queryType.qualifiedName).attr "resultType" "java.lang.Long").text
          "select count(1)").text "from").child (Fragments.inclusion .tableName)).child
            whereCondition)
  else none

/-- The fetching of a generated key, before or after the insert. -/
def selectKey (key : GeneratedKey) (c : ColumnModel) : Element :=
  ((((Element.named "selectKey").attr "keyProperty" c.property).attr "order"
    (if key.runsAfterInsert then "AFTER" else "BEFORE")).attr "resultType"
      c.javaType.qualifiedName).text key.resolvedStatement

/-- **Adds what an insert needs for a generated key.** The driver can hand
back the keys of many rows; a key statement runs once per statement, so a
batch has none. -/
def withGeneratedKey (batch : Bool) (element : Element) : Element :=
  match table.spec.generatedKey, table.generatedKeyColumn? with
  | some key, some column =>
    if key.usesDriver then
      (element.attr "useGeneratedKeys" "true").attr "keyProperty" column.property
    else if batch then element
    else { element with children := (selectKey key column).toNode :: element.children }
  | _, _ => element

/-- **The insert of one row.** -/
def insert? : Option Element :=
  if table.rules.insert then
    let element :=
      ((Element.named "insert").attr "id" FragmentId.insert.name).attr "parameterType"
        table.names.recordType.qualifiedName
    some ((((withGeneratedKey table false element).text "insert into").child
      (Fragments.inclusion .tableName)).child (setOf .set))
  else none

/-- The loop of a batch statement. -/
def loop (separator : String) : Element :=
  ((((Element.named "foreach").attr "collection" "list").attr "item"
    Fragments.loopVariable).attr "index" "index").attr "separator" separator

/-- **The insert of a list of rows.** -/
def batchInsert? : Option Element :=
  if table.rules.batchInsert then
    let element :=
      ((Element.named "insert").attr "id" FragmentId.batchInsert.name).attr "parameterType"
        listType
    some ((((((withGeneratedKey table true element).text "insert into").child
      (Fragments.inclusion .tableName)).text
        ("(" ++ ", ".intercalate (table.insertableColumns.map (·.escapedName)) ++ ")")).text
          "values").child
            ((((loop ",").text "(").child (Fragments.inclusion .batchSetValue)).text ")"))
  else none

/-- **The update of one row.** -/
def update? : Option Element :=
  if table.rules.update then
    some (((((((Element.named "update").attr "id" FragmentId.update.name).attr "parameterType"
      table.names.recordType.qualifiedName).text "update").child
        (Fragments.inclusion .tableName)).child (setOf .set)).text (keyPredicate table none))
  else none

/-- **The update of a list of rows**, one statement per row. -/
def batchUpdate? : Option Element :=
  if table.rules.batchUpdate then
    some ((((Element.named "update").attr "id" FragmentId.batchUpdate.name).attr "parameterType"
      listType).child
        (((((loop ";").text "update").child (Fragments.inclusion .tableName)).child
          (setOf .batchSet)).text (keyPredicate table (some Fragments.loopVariable))))
  else none

end TableMapper.Statements
