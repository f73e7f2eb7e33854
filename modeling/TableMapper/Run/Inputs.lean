import TableMapper.Run.Failure
import TableMapper.Settings.Layered

/-!
# Settings from a file tree

The settings of a run come from a configuration file alone, or from a
configuration file and the environment together.
-/

namespace TableMapper.Settings

/-- **The settings of a configuration file.** -/
def ofFile (tree : FileTree) (path : String) : Except Failure Settings := do
  let text ← Failure.ofFile (tree.readText path)
  (ofText text).mapError fun _ => .settingsMalformed path

/-- The text of the first file tried for a name that is there, if it can be
read as a configuration file. -/
def fileText? (tree : FileTree) (name : String) : Option String :=
  match (candidates name).find? fun (path, _) => tree.isFile path with
  | some (path, true) => (tree.readText path).toOption
  | _ => none

/-- **The settings of a file under the environment.** A file that is named
must be there; without a name the default file is used if it is there. -/
def ofLayers (tree : FileTree) (name : Option String) (env : List (String × String)) :
    Except Failure Settings := do
  let text ← match name with
    | none => pure (fileText? tree defaultFile)
    | some name =>
      match fileText? tree name with
      | none => .error .settingsUnusable
      | some text => pure (some text)
  (load text env).mapError fun _ => .settingsUnusable

end TableMapper.Settings
