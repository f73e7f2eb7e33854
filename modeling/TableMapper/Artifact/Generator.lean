import TableMapper.Artifact.MapperDocument
import TableMapper.Artifact.MapperInterface
import TableMapper.Artifact.QueryCondition
import TableMapper.Artifact.Record
import TableMapper.Table.Introspection

/-!
# Generators

Every table runs through the generators in order. A generator reads the
model of the table, offers what it builds to the plugins, and keeps no state
between tables.
-/

namespace TableMapper

/-- A generator of artifacts. -/
structure Generator where
  name : String
  /-- What it warns of before it builds anything. -/
  warnings : TableModel → List Warning
  generate : Settings → PluginChain → TableModel → Heard (List Artifact)

namespace Generator

/-- The generator of record classes. -/
def record : Generator where
  name := "record"
  warnings _ := []
  generate settings plugins table := Record.generate settings table plugins

/-- The generator of query-condition classes. -/
def queryCondition : Generator where
  name := "query-condition"
  warnings _ := []
  generate settings plugins table := QueryCondition.generate settings table plugins

/-- The generator of mapper interfaces. -/
def mapperInterface : Generator where
  name := "mapper-interface"
  warnings _ := []
  generate settings plugins table := MapperInterface.generate settings table plugins

/-- The generator of mapper documents, over a builder of fragments. -/
def mapperDocument (build : MapperDocument.Builder) : Generator where
  name := "sqlmap"
  warnings := MapperDocument.warnings
  generate settings plugins table := MapperDocument.generate settings table build plugins

/-- **The generators of a run**, in order. -/
def defaults : List Generator :=
  [record, queryCondition, mapperInterface, mapperDocument MapperDocument.fragment?]

end Generator

variable (settings : Settings) (plugins : PluginChain) (table : TableModel)

/-- The warnings of several generators about a table. -/
def generationWarnings (generators : List Generator) : List Warning :=
  generators.flatMap (·.warnings table)

/-- **The artifacts of a table.** -/
def generateTable : List Generator → Heard (List Artifact)
  | [] => pure []
  | generator :: rest => do
    let artifacts ← generator.generate settings plugins table
    return artifacts ++ (← generateTable rest)

/-- The plugins of a run: those the settings name, then further ones. A name
without a plugin is handed back. -/
def Settings.pluginChain (s : Settings) (further : List Plugin) : Except String PluginChain := do
  let named ← s.plugins.mapM fun name =>
    match BuiltinPlugin.ofName? name with
    | some p => .ok (Plugin.builtin p)
    | none => .error name
  return named ++ further

end TableMapper
