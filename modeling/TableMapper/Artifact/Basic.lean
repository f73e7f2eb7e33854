import TableMapper.Files.Path
import TableMapper.Markup.Render
import TableMapper.Unit.Render

/-!
# Artifacts

An artifact is a file to be written, still as a tree: a Java class or
interface, or a mapper document. It knows the project directory it goes to,
the package below it, and its file name.
-/

namespace TableMapper

/-- What an artifact is. -/
inductive ArtifactKind
  | record | queryCondition | mapperInterface | mapperDocument
deriving Repr, DecidableEq

/-- The tree of an artifact. -/
inductive ArtifactBody
  | java (unit : JavaUnit)
  | markup (document : Markup.Document)
deriving Repr, BEq

/-- **A file to be written.** -/
structure Artifact where
  kind : ArtifactKind
  /-- The directory of the project. -/
  project : String
  /-- The package, with dots; every part becomes a directory. -/
  package : String
  fileName : String
  body : ArtifactBody
deriving Repr, BEq

namespace Artifact

/-- A source file as an artifact; its type says where it goes. -/
def ofUnit (kind : ArtifactKind) (project : String) (unit : JavaUnit) : Artifact where
  kind
  project
  package := unit.type.packageName?.getD ""
  fileName := unit.fileName
  body := .java unit

/-- A mapper document as an artifact. -/
def ofDocument (project package fileName : String) (document : Markup.Document) : Artifact where
  kind := .mapperDocument
  project
  package
  fileName
  body := .markup document

/-- The text of the file. -/
def render (a : Artifact) : String :=
  match a.body with
  | .java unit => unit.render
  | .markup document => document.render

/-- The directories of the package. -/
def packagePath (a : Artifact) : String :=
  Path.joinAll ((Text.splitAt '.' a.package).filter (!·.isEmpty))

/-- **The path below the project.** -/
def relativePath (a : Artifact) : String :=
  Path.join a.packagePath a.fileName

end Artifact

end TableMapper
