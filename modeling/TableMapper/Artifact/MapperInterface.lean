import TableMapper.Artifact.Basic
import TableMapper.Artifact.Bean

/-!
# Mapper interfaces

The interface bound to a mapper document declares a method for each
statement that callers may use. Updates have no method.
-/

namespace TableMapper.MapperInterface

variable (settings : Settings) (table : TableModel)

/-- The declaration of a statement with one parameter. -/
def declaration (name : String) (returnType : JavaType) (parameter : String) (type : JavaType) :
    Method :=
  { Method.declaration name returnType with
    parameters := [{ name := parameter, type }]
    javadoc := taggedJavadoc [] }

/-- **The methods of the interface** with the statements they call. -/
def methods : List (FragmentId × Method) :=
  let rules := table.rules
  let record := table.names.recordType
  let query := table.names.queryType
  let int := JavaType.named "int"
  (if rules.insert then [(.insert, declaration "insert" int "record" record)] else []) ++
  (if rules.batchInsert then
    [(.batchInsert, declaration "batchInsert" int "list" (.listOf record))] else []) ++
  (if rules.count then [(.count, declaration "count" (.named "long") "qc" query)] else []) ++
  (if rules.getByQc then [(.getByQc, declaration "getByQc" record "qc" query)] else []) ++
  (if rules.list then [(.list, declaration "list" (.listOf record) "qc" query)] else [])

/-- The interface without methods. -/
def bare : JavaUnit :=
  { kind := .interface, type := table.names.mapperType, javadoc := typeJavadoc table }

/-- Adds the methods that the plugins approve. -/
def addMethods (plugins : PluginChain) : List (FragmentId × Method) → JavaUnit → Heard JavaUnit
  | [], u => pure u
  | (statement, method) :: rest, u => do
    let approved ← plugins.offer table (.clientMethod statement) method
    addMethods plugins rest <|
      match approved with
      | some m =>
        (u.addImports (m.returnType.toList ++ m.parameters.map (·.type))).addMethod m
      | none => u

/-- **The mapper interface of a table**, unless the plugins veto it. -/
def generate (plugins : PluginChain) : Heard (List Artifact) := do
  let unit ← addMethods table plugins (methods table) (bare table)
  let approved ← plugins.offer table .clientInterface unit
  return approved.toList.map (.ofUnit .mapperInterface settings.targetProject)

end TableMapper.MapperInterface
