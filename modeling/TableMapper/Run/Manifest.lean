import TableMapper.Run.Generation
import TableMapper.Run.Inputs
import TableMapper.Settings.Change

/-!
# Runs from a package manifest

A build script runs the generator with what the manifest of its package says
in the section for this program: the schema file, and on demand a
configuration file, an output directory and further tables. On standard
output it names the files the build depends on, and then the warnings.
-/

namespace TableMapper

/-- The section of a manifest for this program. -/
structure ManifestSection where
  schemaFile : Option String := none
  configFile : Option String := none
  outputDirectory : Option String := none
  tables : List String := []
deriving Repr, DecidableEq

namespace Manifest

open Settings (Decoder Coercion)

/-! ## Reading the manifest -/

/-- The section for this program. -/
def programSection : Decoder ManifestSection := fun _ v => do
  let text := Settings.ofCoercion Coercion.strict.text
  return {
    schemaFile := ← Settings.optional text v 0 "schema_file"
    configFile := ← Settings.optional text v 1 "config_file"
    outputDirectory := ← Settings.optional text v 2 "output_dir"
    tables := ← Settings.withDefault (Settings.listOf text) [] v 3 "tables" }

/-- A decoder of the first field of a record, which may be absent. -/
def onlyField {α : Type} (key : String) (item : Decoder α) : Decoder (Option α) := fun _ v =>
  Settings.optional item v 0 key

/-- The section for this program in a manifest: the field of that name in
the metadata of the package. -/
def manifestSection : Decoder (Option ManifestSection) := fun key v => do
  let package ← onlyField "package"
    (onlyField "metadata" (onlyField "mapper-codegen" programSection)) key v
  return package.bind fun metadata => metadata.bind id

/-- **The section for this program in the text of a manifest.** -/
def readSection (path text : String) : Except Failure ManifestSection :=
  match ConfigText.read text with
  | none => .error (.manifestMalformed path)
  | some fields =>
    match manifestSection "" (.table .header fields) with
    | .error _ => .error (.manifestMalformed path)
    | .ok none => .error .manifestSection
    | .ok (some found) => .ok found

/-! ## Printing while settings are put together -/

/-- A part of a run that prints lines and may fail. What has been printed
stays printed. -/
abbrev Printing (α : Type) := ExceptT Failure (StateM (List String)) α

/-- Prints a line. -/
def printLine (line : String) : Printing Unit :=
  modify fun lines => lines ++ [line]

/-- A result that may be a failure. -/
def ofResult {α : Type} : Except Failure α → Printing α
  | .ok a => pure a
  | .error failure => throw failure

/-- Tells the build that it depends on a file. -/
def dependOn (path : String) : Printing Unit :=
  printLine ("cargo:rerun-if-changed=" ++ path)

variable (env : List (String × String)) (tree : FileTree)

/-- The value of a variable that must be set. -/
def variableValue (name : String) : Printing String :=
  ofResult ((env.lookup name).elim (.error (.variableUnset name)) .ok)

/-- The settings that the configuration file of a section holds. -/
def baseSettings (directory : String) : Option String → Printing Settings
  | none => pure {}
  | some file => do
    let path := Path.join directory file
    dependOn path
    ofResult (Settings.ofFile tree path)

/-- The output directory of a section, or else that of the build. -/
def outputDirectory (directory : String) : Option String → Printing String
  | some output => pure (Path.join directory output)
  | none => variableValue env "OUT_DIR"

/-- **The settings of a run from the manifest.** -/
def settings : Printing Settings := do
  let directory ← variableValue env "CARGO_MANIFEST_DIR"
  let path := Path.join directory "Cargo.toml"
  let text ← ofResult (Failure.ofFile (tree.readText path))
  let found ← ofResult (readSection path text)
  let schema ← ofResult (found.schemaFile.elim (.error .manifestSchema) .ok)
  let schemaPath := Path.join directory schema
  let base ← baseSettings tree directory found.configFile
  let output ← outputDirectory env directory found.outputDirectory
  dependOn schemaPath
  dependOn path
  let chosen := (found.tables.map TableSpec.named).foldl Settings.addTable base
  return { chosen with schemaFile := schemaPath }.outputTo output

/-- What a run from a manifest leads to. -/
structure Result where
  printed : List String
  outcome : Except Halt Report
  tree : FileTree

/-- **Generates from the manifest** of the package the environment names. -/
def generate : Result :=
  match (settings env tree).run.run [] with
  | (.error failure, printed) => ⟨printed, .error (.failed failure), tree⟩
  | (.ok chosen, printed) =>
    let job : Job := { settings := chosen }
    match job.generate tree with
    | (.error halt, state) => ⟨printed, .error halt, state.tree⟩
    | (.ok (), state) =>
      let lines := state.warnings.map fun w => "cargo:warning=" ++ w.message
      ⟨printed ++ lines, .ok state.report, state.tree⟩

end Manifest

end TableMapper
