import TableMapper.Settings.Decode

/-!
# Settings from file and environment

Environment variables whose name begins with `MAPPER_CODEGEN__` override the
configuration file. Two underscores in the rest of the name lead into a
table: `MAPPER_CODEGEN__RECORD_ROOT_CLASS__TYPE` is the `type` of the record
root class. The case of the name does not matter.
-/

namespace TableMapper.Settings

open ConfigText (Value Fields Origin)

/-- The beginning of the variables that count, in lower case. -/
def variableStart : String :=
  "mapper_codegen__"

/-- The text at each place where two underscores stood is cut off. -/
def splitUnderscores : List Char → List (List Char)
  | [] => [[]]
  | '_' :: '_' :: rest => [] :: splitUnderscores rest
  | c :: rest =>
    match splitUnderscores rest with
    | [] => [[c]]
    | part :: more => (c :: part) :: more

/-- The setting a variable names, as a path of keys. A name that is no
sequence of plain keys is one key as it stands. -/
def variablePath? (name : String) : Option (List String) :=
  let lowered := (Text.asciiLower name).toList
  if variableStart.toList.isPrefixOf lowered then
    let rest := lowered.drop variableStart.length
    let parts := (splitUnderscores rest).flatMap (Text.pieces (· == '.'))
    let plain := parts.all fun part => !part.isEmpty && part.all ConfigText.isKeyChar
    if plain then some (parts.map String.ofList)
    else some [".".intercalate (parts.map String.ofList)]
  else none

/-- The fields with a value put at the end of a path. What is no table on
the way becomes one. -/
def override (v : Value) : List String → Fields → Fields
  | [], fields => fields
  | [key], fields =>
    if (fields.lookup key).isSome then fields.replace key v else fields ++ [(key, v)]
  | key :: path, fields =>
    match fields.lookup key with
    | some (.table origin inner) => fields.replace key (.table origin (override v path inner))
    | some _ => fields.replace key (.table .header (override v path []))
    | none => fields ++ [(key, .table .header (override v path []))]

/-- The fields of a file with the variables laid over them. -/
def overlay (env : List (String × String)) (fields : Fields) : Fields :=
  env.foldl
    (fun fields (name, text) =>
      match variablePath? name with
      | some path => override (.text text) path fields
      | none => fields)
    fields

/-- **The settings of a file, if there is one, under the environment.** -/
def load (file : Option String) (env : List (String × String)) :
    Except DecodeFault Settings := do
  let fields ← match file with
    | none => pure []
    | some text => (ConfigText.read text).elim (.error .malformed) .ok
  decode .lenient (.table .header (overlay env fields))

/-- The configuration file used when none is named. -/
def defaultFile : String :=
  "mapper-codegen"

/-- The files tried for a name: the name itself if it has the extension of a
configuration file, else with the extension added. The flag says whether the
file can be read as one. -/
def candidates (name : String) : List (String × Bool) :=
  [(name, name.endsWith ".toml"), (name ++ ".toml", true)]

end TableMapper.Settings
