import TableMapper.Settings.TableSpec

/-!
# Settings of a run

Where the schema is read and the artifacts go, what the generated classes
look like, and the tables to generate. Every setting has a default.
-/

namespace TableMapper

/-- The superclass of the generated records. -/
structure RootClass where
  typeName : String
  /-- The properties it declares itself. -/
  properties : List String
deriving Repr, DecidableEq

/-- The settings of a run. -/
structure Settings where
  schemaFile : String := ""
  /-- The root directory of generated classes. -/
  targetProject : String := "./generated/java"
  /-- The root directory of mapper documents. -/
  mapperProject : String := "./generated/resources"
  modelPackage : String := "com.example.model"
  queryPackage : String := "com.example.query"
  clientPackage : String := "com.example.mapper"
  mapperPackage : String := "mapper"
  /-- Existing files are merged into. -/
  merge : Bool := true
  /-- Existing files are replaced when they are not merged into. -/
  overwrite : Bool := false
  constructorBased : Bool := false
  immutable : Bool := false
  serializable : Bool := false
  recordRoot : Option RootClass := none
  queryRoot : Option String := none
  useJavaTime : Bool := false
  forceBigDecimals : Bool := false
  plugins : List String := []
  tables : List TableSpec := []
  dryRun : Bool := false
  logLevel : Option String := none
deriving Repr, DecidableEq, Inhabited

namespace Settings

/-- The tag that marks generated members. -/
def retentionTag : String :=
  "@mapper.generated"

/-- What a timestamp column is set to when no value is given. -/
def currentTime : String :=
  "now()"

/-- The highest number tried behind the name of an existing file. -/
def maxSuffix : Nat :=
  999

/-- The directories under one output root: classes in `java`, mapper
documents in `resources`. -/
def classesUnder : String :=
  "java"

/-- The directory of mapper documents under an output root. -/
def mappersUnder : String :=
  "resources"

/-- Records have a constructor over all properties; immutable ones always
have. -/
def hasConstructor (s : Settings) : Bool :=
  s.constructorBased || s.immutable

/-- **The specifications to run**: the configured ones, or one that selects
every table. -/
def effectiveSpecs (s : Settings) : List TableSpec :=
  if s.tables.isEmpty then [TableSpec.named "%"] else s.tables

end Settings

end TableMapper
