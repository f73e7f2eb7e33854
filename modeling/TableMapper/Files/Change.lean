import TableMapper.Files.Tree

/-!
# Changes between file trees

What leads from one file tree to another, as far as files go: the files that
are new or hold something else, and the files that are gone.
-/

namespace TableMapper

/-- The changes from one file tree to another, by path. -/
structure FileChanges where
  changed : List (String × Content) := []
  removed : List String := []
deriving Repr, DecidableEq

namespace FileTree

/-- The files of a tree. -/
def files (t : FileTree) : List (Location × Content) :=
  t.entries.filterMap fun (location, e) =>
    match e with
    | .file content => some (location, content)
    | .directory => none

/-- **What leads from one tree to another.** -/
def changes (before after : FileTree) : FileChanges where
  changed :=
    (after.files.filter fun (location, content) => before.at? location != some (.file content)).map
      fun (location, content) => (Path.ofLocation location, content)
  removed :=
    (before.files.filter fun (location, _) => !after.isFileAt location).map
      fun (location, _) => Path.ofLocation location

/-- A file made or replaced together with the directories on its way. -/
def plant (t : FileTree) (path : String) (content : Content) : Except FileFault FileTree := do
  let t ← t.makeDirectories (Path.parent path)
  t.write path content

/-- A file or directory removed, with everything in it. -/
def uproot (t : FileTree) (path : String) : Except FileFault FileTree := do
  let _ ← t.find path
  let location := Path.location path
  return ⟨t.entries.filter fun e => !location.isPrefixOf e.1⟩

end FileTree

end TableMapper
