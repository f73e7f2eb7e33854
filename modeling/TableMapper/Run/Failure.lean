import TableMapper.Files.Tree
import TableMapper.Pattern.Reader
import TableMapper.Settings.Problem

/-!
# Why a run fails

A failure ends a run, or the reading of what a run needs. What other tools
say about the matter is not part of the wording.
-/

namespace TableMapper

/-- What ends a run. -/
inductive Failure
  /-- The script of table definitions is malformed. -/
  | schemaMalformed
  | pattern (fault : Pattern.Fault)
  | unknownPlugin (name : String)
  | invalid (problems : List Problem)
  | file (fault : FileFault)
  /-- A configuration file that holds no settings. -/
  | settingsMalformed (path : String)
  /-- Settings that file and environment do not give together. -/
  | settingsUnusable
  | manifestMalformed (path : String)
  /-- The manifest has no section for this program. -/
  | manifestSection
  /-- The section of the manifest names no schema file. -/
  | manifestSchema
  | variableUnset (name : String)
deriving Repr, DecidableEq

/-- The beginning of most messages about settings. -/
def aboutSettings (text : String) : String :=
  "Configuration error: " ++ text

/-- **The wording of a failure.** -/
def Failure.message : Failure → String
  | .schemaMalformed => "Failed to parse SQL schema"
  | .pattern _ => aboutSettings "a pattern is malformed"
  | .unknownPlugin name => aboutSettings ("Unknown plugin: " ++ name)
  | .invalid problems =>
    "Invalid configuration:\n  " ++ "\n  ".intercalate (problems.map (·.message))
  | .file fault => "IO error: " ++ fault.message
  | .settingsMalformed path => "Failed to parse config file " ++ path
  | .settingsUnusable => aboutSettings "the settings cannot be read"
  | .manifestMalformed path => "Failed to parse " ++ path
  | .manifestSection =>
    aboutSettings "Missing [package.metadata.mapper-codegen] section in Cargo.toml"
  | .manifestSchema =>
    aboutSettings "schema_file is required in [package.metadata.mapper-codegen]"
  | .variableUnset name =>
    aboutSettings (name ++ " not set - are you running from build.rs?")

/-- A result over a file fault is one over a failure. -/
def Failure.ofFile {α : Type} : Except FileFault α → Except Failure α :=
  Except.mapError .file

/-- No failure if nothing is wrong with a configuration. -/
def Failure.ofProblems (problems : List Problem) : Except Failure Unit :=
  if problems.isEmpty then .ok () else .error (.invalid problems)

end TableMapper
