import TableMapper.Artifact.Basic
import TableMapper.Files.Tree
import TableMapper.Merge.Document
import TableMapper.Merge.Unit
import TableMapper.Run.Outcome
import TableMapper.Settings.Basic

/-!
# Writing artifacts

An artifact goes to the path that its project and package give. If there is
no file yet it is created. An existing file is merged into, replaced, or left
alone with the artifact beside it under the first free numbered name,
depending on the settings.

A directory that cannot be made and a merge that cannot be done skip the
artifact with a warning; a file that cannot be read or written is a fault.
-/

namespace TableMapper

/-- The text of an artifact merged into an existing file. -/
def Artifact.mergeInto (a : Artifact) (existing : String) : Except MergeReason String :=
  match a.body with
  | .java unit => unit.mergeInto existing
  | .markup document => document.mergeInto existing

/-- The path of an artifact. -/
def Artifact.target (a : Artifact) : String :=
  Path.join a.project a.relativePath

/-- What writing an artifact leads to. -/
structure Written where
  tree : FileTree
  outcome : WriteOutcome
  warnings : List Warning := []

namespace Writing

/-- The path beside a target with a number behind the name. A target without
a name is a directory, and the path leads into it. -/
def numbered (target : String) (n : Nat) : String :=
  let name := Path.fileName target
  Path.join (if name.isEmpty then target else Path.parent target) (name ++ "." ++ toString n)

/-- The first free numbered path beside a target. -/
def freePath? (tree : FileTree) (target : String) : Option String :=
  ((List.range Settings.maxSuffix).map fun i => numbered target (i + 1)).find?
    (!tree.exists ·)

variable (tree : FileTree) (a : Artifact)

/-- The artifact is merged into the file at its target. -/
def merge : Except FileFault Written := do
  let existing ← tree.readText a.target
  match a.mergeInto existing with
  | .error reason =>
    return ⟨tree, ⟨.skipped, a.target⟩, [.unmerged ⟨a.fileName, reason⟩]⟩
  | .ok merged =>
    let tree ← if merged == existing then pure tree else tree.writeText a.target merged
    return ⟨tree, ⟨.merged, a.target⟩, []⟩

/-- The artifact replaces the file at its target. -/
def overwrite : Except FileFault Written := do
  let tree ← tree.writeText a.target a.render
  return ⟨tree, ⟨.overwritten, a.target⟩, [.overwritten a.target]⟩

/-- The artifact is written beside the file at its target. -/
def rename : Except FileFault Written :=
  match freePath? tree a.target with
  | none => .ok ⟨tree, ⟨.skipped, a.target⟩, [.suffixesExhausted a.target]⟩
  | some path => do
    let tree ← tree.writeText path a.render
    return ⟨tree, ⟨.renamed, path⟩, [.renamed a.target path]⟩

/-- The tree with the directory of a target, unless it cannot be made. The
empty path has none. -/
def withDirectory? (target : String) : Option FileTree :=
  let directory := Path.parent target
  if target.isEmpty then some tree
  else if directory.isEmpty then none
  else (tree.makeDirectories directory).toOption

end Writing

/-- **Writes an artifact** as the settings say. -/
def Artifact.write (settings : Settings) (tree : FileTree) (a : Artifact) :
    Except FileFault Written :=
  if settings.dryRun then .ok ⟨tree, ⟨.planned, a.target⟩, []⟩
  else
    match Writing.withDirectory? tree a.target with
    | none =>
      .ok ⟨tree, ⟨.skipped, a.target⟩, [.directory (Path.parent a.target) a.fileName]⟩
    | some tree =>
      if !tree.exists a.target then do
        let tree ← tree.writeText a.target a.render
        return ⟨tree, ⟨.created, a.target⟩, []⟩
      else if settings.merge then Writing.merge tree a
      else if settings.overwrite then Writing.overwrite tree a
      else Writing.rename tree a

end TableMapper
