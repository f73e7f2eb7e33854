import TableMapper.Artifact.Basic
import TableMapper.Artifact.Bean

/-!
# Query-condition classes

The parameter of the filtering statements. It has a property for every
column that may be filtered by. Ordering and paging are properties of its
own unless a root class, which is expected to declare them, is configured.
-/

namespace TableMapper.QueryCondition

variable (settings : Settings) (table : TableModel)

/-- A property of the condition. -/
def fieldProperty (f : QueryField) : BeanProperty :=
  { BeanProperty.ofColumn table f.column with name := f.property, type := f.javaType }

/-- The properties for ordering and paging. -/
def pagingProperties : List BeanProperty :=
  let property := fun (type doc name : String) =>
    ({ name, type := .named type, column := none, doc := [doc] } : BeanProperty)
  (table.spec.orderByField.toList.map (property "java.lang.String" "Order-by clause")) ++
  (table.spec.offsetField.toList.map (property "java.lang.Integer" "Row offset")) ++
  (table.spec.limitField.toList.map (property "java.lang.Integer" "Maximum rows"))

/-- **The properties of the class.** -/
def properties : List BeanProperty :=
  table.queryFields.map (fieldProperty table) ++
    if settings.queryRoot.isSome then [] else pagingProperties table

/-- The class before its properties are added. -/
def bare : JavaUnit :=
  let unit : JavaUnit :=
    { kind := .class, type := table.names.queryType, javadoc := typeJavadoc table }
  match settings.queryRoot with
  | some root => unit.extending (.named root)
  | none => unit

/-- **The query-condition class of a table**, unless the plugins veto it. -/
def generate (plugins : PluginChain) : Heard (List Artifact) := do
  let properties := properties settings table
  let unit ← JavaUnit.addFields plugins table .queryCondition properties (bare settings table)
  let unit ← JavaUnit.addAccessors plugins table .queryCondition false properties unit
  let approved ← plugins.offer table (.modelClass .queryCondition) unit
  return approved.toList.map (.ofUnit .queryCondition settings.targetProject)

end TableMapper.QueryCondition
