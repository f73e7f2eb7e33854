import TableMapper.CommandLine.Execution
import TableMapper.Files.Change

/-!
# The program

Reads from disk what a run looks at, runs it on that file tree, and brings
its changes back to disk. What a run looks at is known beforehand: the
configuration and schema files, and what stands where its artifacts would
go.
-/

namespace TableMapper.CommandLine

/-- What is at a path on disk. -/
def readEntry (path : String) : IO (Option Entry) := do
  try
    let bytes ← IO.FS.readBinFile path
    return some (.file (Content.ofBytes bytes.toList))
  catch
    | .inappropriateType .. => return some .directory
    | _ => return none

/-- The tree with what is on disk at a path and on the way to it. -/
def load (tree : FileTree) (path : String) : IO FileTree := do
  let location := Path.location path
  let mut tree := tree
  for place in (Location.above location).drop 1 ++ [location] do
    match ← readEntry (Path.ofLocation place) with
    | some e => tree := tree.set place e
    | none => break
  return tree

/-- The tree with what is on disk at the numbered paths beside a target, up
to the first free one. -/
def loadNumbered (tree : FileTree) (target : String) : IO FileTree := do
  let mut tree := tree
  for i in List.range Settings.maxSuffix do
    let path := Writing.numbered target (i + 1)
    tree ← load tree path
    unless tree.exists path do break
  return tree

/-- The part of the disk that a run looks at. -/
def snapshot (env : List (String × String)) (a : Arguments) : IO FileTree := do
  let tree ← (configPaths a).foldlM load {}
  match settingsOf env tree a with
  | .error _ => return tree
  | .ok settings =>
    let tree ← load tree settings.schemaFile
    let targets := plannedPaths tree settings
    let tree ← targets.foldlM load tree
    if settings.merge || settings.overwrite then return tree
    else targets.foldlM loadNumbered tree

/-- Brings changes to disk. -/
def save (changes : FileChanges) : IO Unit := do
  for (path, content) in changes.changed do
    let directory := Path.parent path
    unless directory.isEmpty do IO.FS.createDirAll directory
    match content with
    | .text s => IO.FS.writeFile path s
    | .binary bytes => IO.FS.writeBinFile path ⟨bytes.toArray⟩

/-- The variables of the environment. -/
def environment : IO (List (String × String)) := do
  match ← readEntry "/proc/self/environ" with
  | some (.file (.text s)) =>
    return (Text.splitAt '\x00' s).filterMap fun line =>
      (Text.splitOnce ['='] line.toList).map fun (name, value) =>
        (String.ofList name, String.ofList value)
  | _ => return []

/-- Runs the program and answers its exit code. -/
def run (arguments : List String) : IO UInt32 := do
  let env ← environment
  let tree ← match request arguments with
    | .run a => snapshot env a
    | _ => pure {}
  let (output, after) := execute env tree arguments
  save (tree.changes after)
  for line in output.lines do IO.println line
  for line in output.errors do IO.eprintln line
  return output.code.toUInt32

end TableMapper.CommandLine

/-- The command line program. -/
def main (arguments : List String) : IO UInt32 :=
  TableMapper.CommandLine.run arguments
