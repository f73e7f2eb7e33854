import TableMapper.Artifact.Basic
import TableMapper.Artifact.Bean

/-!
# Record classes

A record class has a property for every column of its table that the root
class does not declare. On demand it is serializable, has constructors, or
is immutable and then has no setters.
-/

namespace TableMapper

/-- The properties a root class declares: trimmed, without blank ones. -/
def RootClass.inherited (root : RootClass) : List String :=
  Text.sortedSet ((root.properties.map Text.trimmed).filter (!·.isEmpty))

namespace Record

/-- The version field of serializable classes. -/
def versionField : Field where
  name := "serialVersionUID"
  type := .named "long"
  isStatic := true
  isFinal := true
  initializer := some "1L"
  javadoc := taggedJavadoc []

variable (settings : Settings) (table : TableModel)

/-- The properties of a record: those of the columns the root class does not
declare. -/
def properties : List BeanProperty :=
  let inherited := (settings.recordRoot.map RootClass.inherited).getD []
  (table.columns.filter fun c => !inherited.contains c.property).map (.ofColumn table)

/-- A record before its properties are added. -/
def bare : JavaUnit :=
  let unit : JavaUnit :=
    { kind := .class, type := table.names.recordType, javadoc := typeJavadoc table }
  let unit := match settings.recordRoot with
    | some root => unit.extending (.named root.typeName)
    | none => unit
  if settings.serializable then
    let unit := unit.addSuperInterface (.named "java.io.Serializable")
    { unit with fields := unit.fields ++ [versionField] }
  else unit

/-- **The constructor over all properties** whose fields are in the class. -/
def fullConstructor (unit : JavaUnit) (properties : List BeanProperty) : Method :=
  let present := properties.filter fun p => unit.fields.any (·.name == p.name)
  { name := unit.type.shortName
    parameters := present.map fun p => { name := p.name, type := p.type }
    body := some
      ((if unit.superclass.isSome then ["super();"] else []) ++
        present.map fun p => BeanProperty.assignment p.name)
    javadoc := taggedJavadoc [] }

/-- The constructor without parameters. -/
def emptyConstructor (unit : JavaUnit) : Method where
  name := unit.type.shortName
  body := some ["super();"]
  javadoc := taggedJavadoc []

/-- Adds the constructors the settings ask for. -/
def addConstructors (properties : List BeanProperty) (unit : JavaUnit) : JavaUnit :=
  if settings.hasConstructor then
    let full := unit.addMethod (fullConstructor unit properties)
    if settings.immutable then full else full.addMethod (emptyConstructor unit)
  else unit

/-- **The record class of a table**, unless the plugins veto it. -/
def generate (plugins : PluginChain) : Heard (List Artifact) := do
  let properties := properties settings table
  let unit ← JavaUnit.addFields plugins table .record properties (bare settings table)
  let unit := addConstructors settings properties unit
  let unit ←
    JavaUnit.addAccessors plugins table .record settings.immutable properties unit
  let approved ← plugins.offer table (.modelClass .record) unit
  return approved.toList.map (.ofUnit .record settings.targetProject)

end Record

end TableMapper
