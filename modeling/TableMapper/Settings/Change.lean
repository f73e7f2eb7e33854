import TableMapper.Files.Path
import TableMapper.Settings.Basic

/-!
# Changing settings

Settings are put together step by step: from the defaults for a schema file,
or from settings that exist, each step changes one of them.
-/

namespace TableMapper.Settings

/-- The defaults for a schema file. -/
def forSchema (path : String) : Settings :=
  { schemaFile := path }

/-- Classes go to `java` and mapper documents to `resources` below an output
directory. -/
def outputTo (s : Settings) (directory : String) : Settings :=
  { s with
    targetProject := Path.join directory classesUnder
    mapperProject := Path.join directory mappersUnder }

/-- One more table. -/
def addTable (s : Settings) (spec : TableSpec) : Settings :=
  { s with tables := s.tables ++ [spec] }

/-- One more plugin. -/
def addPlugin (s : Settings) (name : String) : Settings :=
  { s with plugins := s.plugins ++ [name] }

/-- A step in putting settings together. -/
inductive Change
  | output (directory : String)
  | targetProject (directory : String)
  | mapperProject (directory : String)
  | modelPackage (name : String)
  | queryPackage (name : String)
  | clientPackage (name : String)
  | table (spec : TableSpec)
  | plugin (name : String)
  | overwrite
  | noMerge
  | dryRun
deriving Repr, DecidableEq

/-- **The settings after a step.** -/
def change (s : Settings) : Change → Settings
  | .output directory => s.outputTo directory
  | .targetProject directory => { s with targetProject := directory }
  | .mapperProject directory => { s with mapperProject := directory }
  | .modelPackage name => { s with modelPackage := name }
  | .queryPackage name => { s with queryPackage := name }
  | .clientPackage name => { s with clientPackage := name }
  | .table spec => s.addTable spec
  | .plugin name => s.addPlugin name
  | .overwrite => { s with overwrite := true }
  | .noMerge => { s with merge := false }
  | .dryRun => { s with dryRun := true }

end TableMapper.Settings
