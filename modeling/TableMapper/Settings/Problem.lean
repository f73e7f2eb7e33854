import TableMapper.Plugin.Builtin
import TableMapper.Settings.Basic
import TableMapper.Text.Quoted

/-!
# Problems of a configuration

A configuration is checked as a whole: every problem is found and all are
reported together, those of the run before those of the tables.
-/

namespace TableMapper

/-- What can be wrong with a configuration. -/
inductive Problem
  | schemaRequired
  | schemaMissing (path : String)
  | packageRequired (setting : String)
  | packageInvalid (setting value : String)
  | rootClassRequired
  | unknownPlugin (name : String)
  | tableNameRequired
  | searchRequired (table rule : String)
  | ruleInvalid (table rule : String)
  | patternInvalid (table pattern : String)
  | keyColumnRequired (table : String)
  | keyStatementRequired (table : String)
  | timingBefore (table : String)
  | timingAfter (table : String)
  | timingUnknown (table timing : String)
  | aliveValueRequired (table : String)
deriving Repr, DecidableEq

/-- The wording of a problem. What exactly is wrong with a pattern is not
part of it. -/
def Problem.message : Problem → String
  | .schemaRequired => "schema_file is required"
  | .schemaMissing path => "Schema file not found: " ++ path
  | .packageRequired setting => setting ++ " is required"
  | .packageInvalid setting value => setting ++ " is not a valid Java package: " ++ value
  | .rootClassRequired => "record_root_class.type is required"
  | .unknownPlugin name => "Unknown plugin: " ++ name
  | .tableNameRequired => "table_name is required for every [[tables]] entry"
  | .searchRequired table rule => "table " ++ table ++ ": " ++ rule ++ ".search is required"
  | .ruleInvalid table rule => "table " ++ table ++ ": " ++ rule ++ " is invalid"
  | .patternInvalid table pattern =>
    "table " ++ table ++ ": ignored column pattern " ++ Text.quoted pattern ++ " is invalid"
  | .keyColumnRequired table => "table " ++ table ++ ": generated_key.column is required"
  | .keyStatementRequired table => "table " ++ table ++ ": generated_key.statement is required"
  | .timingBefore table =>
    "table " ++ table ++
      ": generated_key timing \"pre\" cannot be used with an identity column or JDBC keys"
  | .timingAfter table =>
    "table " ++ table ++
      ": generated_key timing \"post\" requires an identity column or JDBC keys"
  | .timingUnknown table timing =>
    "table " ++ table ++ ": generated_key timing must be \"pre\" or \"post\", got \"" ++
      timing ++ "\""
  | .aliveValueRequired table => "table " ++ table ++ ": soft_delete.alive_value is required"

/-- A list with one problem if a condition holds. -/
def problemIf (condition : Bool) (p : Problem) : List Problem :=
  if condition then [p] else []

/-- The problems of a generated key. -/
def GeneratedKey.problems (key : GeneratedKey) (table : String) : List Problem :=
  problemIf (Text.isAllBlank key.column) (.keyColumnRequired table) ++
  problemIf (Text.isAllBlank key.statement) (.keyStatementRequired table) ++
  match key.timing.map Text.asciiLower with
  | none => []
  | some "pre" => problemIf key.isIdentity (.timingBefore table)
  | some "post" => problemIf (!key.isIdentity) (.timingAfter table)
  | some timing => [.timingUnknown table timing]

/-- The problems of a renaming rule. -/
def RenamingRule.problems (rule : RenamingRule) (table setting : String) : List Problem :=
  if rule.search.isEmpty then [.searchRequired table setting]
  else problemIf (!Pattern.isValid rule.search) (.ruleInvalid table setting)

/-- **The problems of a table specification.** -/
def TableSpec.problems (spec : TableSpec) : List Problem :=
  let table := spec.tableName
  problemIf (Text.isAllBlank table) .tableNameRequired ++
  (spec.domainObjectRenaming.toList.flatMap
    (·.problems table "domain_object_renaming_rule")) ++
  (spec.columnRenaming.toList.flatMap (·.problems table "column_renaming_rule")) ++
  (spec.ignoredPatterns.flatMap fun p =>
    problemIf (!Pattern.isValid p.pattern) (.patternInvalid table p.pattern)) ++
  (spec.generatedKey.toList.flatMap (·.problems table)) ++
  (spec.softDelete.toList.flatMap fun s =>
    problemIf (Text.isAllBlank s.aliveValue) (.aliveValueRequired table))

/-- A package name: parts joined by dots, each a letter or underscore and
then letters, digits and underscores. -/
def isPackageName (name : String) : Bool :=
  (Text.pieces (· == '.') name.toList).all fun
    | [] => false
    | c :: rest =>
      (c.isAlpha || c == '_') && rest.all fun c => c.isAlphanum || c == '_'

namespace Settings

/-- The problem of one package setting. -/
def packageProblems (setting value : String) : List Problem :=
  if Text.isAllBlank value then [.packageRequired setting]
  else problemIf (!isPackageName value) (.packageInvalid setting value)

/-- **The problems of the settings**, the schema file aside. -/
def problems (s : Settings) : List Problem :=
  packageProblems "model_package" s.modelPackage ++
  packageProblems "query_package" s.queryPackage ++
  packageProblems "client_package" s.clientPackage ++
  (s.recordRoot.toList.flatMap fun root =>
    problemIf (Text.isAllBlank root.typeName) .rootClassRequired) ++
  (s.plugins.flatMap fun name =>
    problemIf (BuiltinPlugin.ofName? name).isNone (.unknownPlugin name)) ++
  s.tables.flatMap (·.problems)

/-- The problem of the schema file, if it is to be read; `found` says
whether there is one. -/
def schemaProblems (s : Settings) (found : Bool) : List Problem :=
  if s.schemaFile.isEmpty then [.schemaRequired]
  else problemIf (!found) (.schemaMissing s.schemaFile)

end Settings

end TableMapper
