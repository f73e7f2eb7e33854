import TableMapper.Settings.Change

/-!
# Command line arguments

Options come first, then at most one command. An option with a value may be
given once, its value not being empty; the value stands behind the name, in
the next argument or joined by `=`, and the short name also takes it without
anything between. The next argument is no value if it looks like an option.
-/

namespace TableMapper.CommandLine

/-- What the program is to do. -/
inductive Command
  | generate
  | inspect
deriving Repr, DecidableEq

/-- The arguments of a run. -/
structure Arguments where
  config : Option String := none
  schema : Option String := none
  output : Option String := none
  dryRun : Bool := false
  overwrite : Bool := false
  command : Command := .generate
deriving Repr, DecidableEq

/-- What the arguments ask for. -/
inductive Request
  | run (arguments : Arguments)
  | version
  | help
  | malformed
deriving Repr, DecidableEq

/-- An option with a value. -/
inductive ValueOption
  | config
  | schema
  | output
deriving Repr, DecidableEq

namespace ValueOption

/-- The long name of an option. -/
def longName : ValueOption → String
  | .config => "config"
  | .schema => "schema"
  | .output => "output"

/-- The short name of an option. -/
def shortName : ValueOption → Char
  | .config => 'c'
  | .schema => 's'
  | .output => 'o'

/-- All options with a value. -/
def all : List ValueOption :=
  [.config, .schema, .output]

/-- The arguments with the value of an option, unless it is empty or the
option has one. -/
def put? (option : ValueOption) (value : String) (a : Arguments) : Option Arguments :=
  if value.isEmpty then none
  else
    match option with
    | .config => if a.config.isSome then none else some { a with config := value }
    | .schema => if a.schema.isSome then none else some { a with schema := value }
    | .output => if a.output.isSome then none else some { a with output := value }

end ValueOption

/-- What one argument is. -/
inductive Argument
  /-- An option, with its value if it is joined. -/
  | valued (name : ValueOption) (joined : Option String)
  | dryRun
  | overwrite
  | version
  | help
  /-- Two hyphens, which end the options. -/
  | endOfOptions
  | word (text : String)
  | unknown
deriving Repr, DecidableEq

namespace Argument

/-- A name with two hyphens in front, without them. -/
def ofLong (text : List Char) : Argument :=
  let name := String.ofList (text.takeWhile (· != '='))
  let joined :=
    match text.dropWhile (· != '=') with
    | [] => none
    | _ :: value => some (String.ofList value)
  match ValueOption.all.find? (·.longName == name), joined with
  | some found, joined => .valued found joined
  | none, some _ => .unknown
  | none, none =>
    match name with
    | "dry-run" => .dryRun
    | "overwrite" => .overwrite
    | "version" => .version
    | "help" => .help
    | _ => .unknown

/-- A short name with what follows it in the same argument. -/
def ofShort (name : Char) (rest : List Char) : Argument :=
  match ValueOption.all.find? (·.shortName == name) with
  | some found =>
    match rest with
    | [] => .valued found none
    | '=' :: value => .valued found (some (String.ofList value))
    | value => .valued found (some (String.ofList value))
  | none =>
    match name with
    | 'h' => .help
    | 'V' => .version
    | _ => .unknown

/-- **Reads one argument.** A lone hyphen is a word. -/
def ofText (text : String) : Argument :=
  match text.toList with
  | ['-', '-'] => .endOfOptions
  | '-' :: '-' :: name => ofLong name
  | '-' :: name :: rest => ofShort name rest
  | _ => .word text

end Argument

/-- What follows a command: nothing but a request for help. -/
def afterCommand (a : Arguments) : List String → Request
  | [] => .run a
  | arg :: rest =>
    match Argument.ofText arg with
    | .help => .help
    | .endOfOptions => if rest.isEmpty then .run a else .malformed
    | _ => .malformed

/-- A command and what follows it. -/
def command (a : Arguments) (name : String) (rest : List String) : Request :=
  match name with
  | "generate" => afterCommand { a with command := .generate } rest
  | "inspect" => afterCommand { a with command := .inspect } rest
  | "help" =>
    match rest with
    | [] | ["generate"] | ["inspect"] | ["help"] => .help
    | _ => .malformed
  | _ => .malformed

/-- The request of the arguments from one on, behind those that have been
read. -/
def requestFrom (a : Arguments) : List String → Request
  | [] => .run a
  | arg :: rest =>
    match Argument.ofText arg with
    | .version => .version
    | .help => .help
    | .unknown => .malformed
    | .endOfOptions => if rest.isEmpty then .run a else .malformed
    | .word name => command a name rest
    | .dryRun => if a.dryRun then .malformed else requestFrom { a with dryRun := true } rest
    | .overwrite =>
      if a.overwrite then .malformed else requestFrom { a with overwrite := true } rest
    | .valued option (some value) =>
      match option.put? value a with
      | some a => requestFrom a rest
      | none => .malformed
    | .valued option none =>
      match rest with
      | [] => .malformed
      | value :: rest =>
        match Argument.ofText value with
        | .word value =>
          match option.put? value a with
          | some a => requestFrom a rest
          | none => .malformed
        | _ => .malformed

/-- **What the arguments ask for.** -/
def request (arguments : List String) : Request :=
  requestFrom {} arguments

/-- The settings with the arguments laid over them. -/
def Arguments.apply (a : Arguments) (s : Settings) : Settings :=
  let s := match a.schema with
    | some path => { s with schemaFile := path }
    | none => s
  let s := match a.output with
    | some directory => s.outputTo directory
    | none => s
  { s with dryRun := s.dryRun || a.dryRun, overwrite := s.overwrite || a.overwrite }

end TableMapper.CommandLine
