import TableMapper.Artifact.Generator
import TableMapper.Ddl.Schema
import TableMapper.Run.State
import TableMapper.Run.Writing

/-!
# Generation runs

A run validates its settings, introspects every table, generates every
artifact and writes every file, in this order: each phase is complete before
the next one begins, so a faulty configuration never leaves a tree half
written.
-/

namespace TableMapper

/-- What a run is to do. -/
structure Job where
  settings : Settings
  /-- Where the metadata comes from; if absent, from the schema file of the
  settings. -/
  source : Option MetadataSource := none
  /-- The plugins behind those that the settings name. -/
  plugins : List Plugin := []
  generators : List Generator := Generator.defaults
  stop : StopSignal := StopSignal.never

/-- The metadata of the schema file. -/
def Settings.schemaSource (s : Settings) (tree : FileTree) : Except Failure MetadataSource := do
  Failure.ofProblems (s.schemaProblems (tree.exists s.schemaFile) ++ s.problems)
  let script ← Failure.ofFile (tree.readText s.schemaFile)
  match Ddl.schema? script with
  | none => .error .schemaMalformed
  | some tables => .ok (.ofSchema tables)

namespace Job

variable (job : Job)

/-- The metadata of a run, if its settings are valid. -/
def metadata (tree : FileTree) : Except Failure MetadataSource :=
  match job.source with
  | none => job.settings.schemaSource tree
  | some source => do
    Failure.ofProblems job.settings.problems
    return source

/-- The plugins of a run. -/
def pluginChain : Except Failure PluginChain :=
  (job.settings.pluginChain job.plugins).mapError .unknownPlugin

/-! ## Phases -/

/-- The models of some specifications. -/
def introspectSpecs (source : MetadataSource) : List TableSpec → Run (List TableModel)
  | [] => pure []
  | spec :: rest => do
    Run.mayGoOn job.stop
    Run.announce (.introspecting spec.tableName)
    let found ← Run.ofResult
      ((Introspection.introspect job.settings spec source).mapError .pattern)
    Run.warn found.warnings
    return found.value ++ (← introspectSpecs source rest)

/-- The models of all tables. -/
def introspectAll (source : MetadataSource) : Run (List TableModel) := do
  let specs := job.settings.effectiveSpecs
  Run.announce (.introspection specs.length)
  job.introspectSpecs source specs

/-- The artifacts of some tables. -/
def generateTables (plugins : PluginChain) : List TableModel → Run (List Artifact)
  | [] => pure []
  | table :: rest => do
    Run.mayGoOn job.stop
    Run.announce (.generating table.table)
    Run.warn (generationWarnings table job.generators)
    let artifacts := (generateTable job.settings plugins table job.generators).value
    return artifacts ++ (← generateTables plugins rest)

/-- All artifacts. -/
def generateAll (plugins : PluginChain) (tables : List TableModel) : Run (List Artifact) := do
  Run.announce (.generation tables.length)
  job.generateTables plugins tables

/-- Writes some artifacts. -/
def writeFiles : List Artifact → Run Unit
  | [] => pure ()
  | a :: rest => do
    Run.mayGoOn job.stop
    Run.announce (.saving a.fileName)
    let written ← Run.ofResult (Failure.ofFile (a.write job.settings (← get).tree))
    modify fun s =>
      { s.warn written.warnings with
        tree := written.tree
        files := s.files ++ [written.outcome] }
    writeFiles rest

/-- Writes all artifacts. -/
def writeAll (artifacts : List Artifact) : Run Unit := do
  Run.announce (.save artifacts.length)
  job.writeFiles artifacts

/-! ## Whole runs -/

/-- A run that writes the artifacts. -/
def generation : Run Unit := do
  let source ← Run.ofResult (job.metadata (← get).tree)
  let plugins ← Run.ofResult job.pluginChain
  let tables ← job.introspectAll source
  let artifacts ← job.generateAll plugins tables
  job.writeAll artifacts
  Run.announce .done

/-- A run that only introspects the tables. -/
def inspection : Run (List TableModel) := do
  let source ← Run.ofResult (job.metadata (← get).tree)
  let tables ← job.introspectAll source
  Run.announce .done
  return tables

/-- **Generates into a file tree**, and the state this leads to. -/
def generate (tree : FileTree) : Except Halt Unit × RunState :=
  job.generation.run.run { tree }

/-- **Inspects the tables**, and the state this leads to. -/
def inspect (tree : FileTree) : Except Halt (List TableModel) × RunState :=
  job.inspection.run.run { tree }

end Job

end TableMapper
