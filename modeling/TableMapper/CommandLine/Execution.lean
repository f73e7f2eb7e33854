import TableMapper.CommandLine.Arguments
import TableMapper.Run.Generation
import TableMapper.Run.Inputs

/-!
# The command line program

The program lists what became of every artifact, or the tables it found, and
then the warnings. What it prints is a function of its arguments, the
environment and the file tree.
-/

namespace TableMapper.CommandLine

/-- What the program prints, and the code it ends with. -/
structure Output where
  code : Nat := 0
  /-- The lines on standard output. -/
  lines : List String := []
  /-- The lines on standard error. -/
  errors : List String := []
deriving Repr, DecidableEq

/-- The name and the version of the program. -/
def versionLine : String :=
  "mapper-codegen 0.1.0"

/-- How the program is called. -/
def usageLines : List String :=
  ["Usage: mapper-codegen [OPTIONS] [COMMAND]", "",
   "Commands:",
   "  generate  Generate every artifact for every configured table",
   "  inspect   Inspect schema (show introspected tables for debugging)", "",
   "Options:",
   "  -c, --config <CONFIG>  Path to configuration file (TOML format)",
   "  -s, --schema <SCHEMA>  Path to SQL schema file (overrides config)",
   "  -o, --output <OUTPUT>  Output root (Java goes to OUTPUT/java, XML to OUTPUT/resources)",
   "      --dry-run          Show what would be generated without writing files",
   "      --overwrite        Overwrite existing files that are not merged",
   "  -h, --help             Print help",
   "  -V, --version          Print version"]

/-! ## Listings -/

/-- A text filled up with blanks to a width. -/
def padded (width : Nat) (s : String) : String :=
  s ++ String.ofList (List.replicate (width - s.length) ' ')

/-- The line of an outcome. -/
def outcomeLine (o : WriteOutcome) : String :=
  "  " ++ padded 11 o.action.label ++ " " ++ o.path

/-- The lines about warnings, if there are any. -/
def warningLines (warnings : List Warning) : List String :=
  if warnings.isEmpty then []
  else
    "" :: (toString warnings.length ++ " warning(s):") ::
      warnings.map fun w => "  - " ++ w.message

/-- The lines of a report. -/
def reportLines (settings : Settings) (r : Report) : List String :=
  (if settings.dryRun then ["Dry run mode - would generate:"] else []) ++
    r.files.map outcomeLine ++ warningLines r.warnings

/-- The line of a column. -/
def columnLine (c : ColumnModel) : String :=
  "    - " ++ c.actualName ++ " " ++ c.jdbcType ++ " " ++
    (if c.nullable then "NULL" else "NOT NULL") ++ " -> " ++ c.javaType.shortName ++ " " ++
    c.property ++ (if c.primaryKey then " PK" else "") ++
    (if c.largeObject then " LOB" else "")

/-- The line that counts the columns of a table. -/
def columnCountLine (m : TableModel) : String :=
  "  Columns (" ++ toString m.primaryKeyColumns.length ++ " key, " ++
    toString m.baseColumns.length ++ " base, " ++
    toString m.largeObjectColumns.length ++ " large object):"

/-- The lines of a table, the last one blank. -/
def tableLines (m : TableModel) : List String :=
  ["Table: " ++ m.table.display] ++
    (m.remarks.toList.map fun remarks => "  Remarks: " ++ remarks) ++
    ["  Record: " ++ m.names.recordType.qualifiedName,
     "  Mapper: " ++ m.names.mapperType.qualifiedName,
     columnCountLine m] ++
    m.columns.map columnLine ++
    (if m.queryFields.isEmpty then []
     else ["  Query fields: " ++ ", ".intercalate (m.queryFields.map (·.property))]) ++
    [""]

/-- The lines about the tables found. -/
def inspectionLines (tables : List TableModel) (warnings : List Warning) : List String :=
  ["Introspected " ++ toString tables.length ++ " tables:", ""] ++
    tables.flatMap tableLines ++ warningLines warnings

/-! ## Execution -/

/-- The output of a run that halts. -/
def haltOutput (report : Report) (halt : Halt) : Output :=
  let message := match halt with
    | .cancelled => report.cancelMessage
    | .failed failure => failure.message
  { code := 1, errors := Text.lines ("Error: " ++ message) }

variable (env : List (String × String)) (tree : FileTree)

/-- The settings of a run. -/
def settingsOf (a : Arguments) : Except Failure Settings := do
  let base ← match a.config with
    | none => pure {}
    | some path => Settings.ofLayers tree (some path) env
  return a.apply base

/-- The files that a run may read before it writes: those the settings can
come from. -/
def configPaths (a : Arguments) : List String :=
  match a.config with
  | none => []
  | some name => (Settings.candidates name).map (·.1)

/-- **Where the artifacts of a run would go**, as far as its inputs are in
the tree. -/
def plannedPaths (settings : Settings) : List String :=
  let job : Job := { settings := { settings with dryRun := true } }
  (job.generate tree).2.files.map (·.path)

/-- A run with its arguments. -/
def executeRun (a : Arguments) : Output × FileTree :=
  match settingsOf env tree a with
  | .error failure => (haltOutput {} (.failed failure), tree)
  | .ok settings =>
    let job : Job := { settings }
    match a.command with
    | .generate =>
      match job.generate tree with
      | (.error halt, state) => (haltOutput state.report halt, state.tree)
      | (.ok (), state) => ({ lines := reportLines settings state.report }, state.tree)
    | .inspect =>
      match job.inspect tree with
      | (.error halt, state) => (haltOutput state.report halt, state.tree)
      | (.ok tables, state) => ({ lines := inspectionLines tables state.warnings }, state.tree)

/-- **What the program prints and does to the file tree.** -/
def execute (arguments : List String) : Output × FileTree :=
  match request arguments with
  | .version => ({ lines := [versionLine] }, tree)
  | .help => ({ lines := usageLines }, tree)
  | .malformed => ({ code := 2, errors := "error: malformed arguments" :: usageLines }, tree)
  | .run a => executeRun env tree a

end TableMapper.CommandLine
