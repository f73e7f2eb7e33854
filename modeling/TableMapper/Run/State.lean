import TableMapper.Artifact.Record
import TableMapper.Run.Failure
import TableMapper.Run.Outcome

/-!
# The state of a run

A run reads and changes a file tree, collects warnings and outcomes, and
reports its progress. Between tables and between files it asks whether it
shall stop; the answers are a function of how often it has asked. A run that
halts keeps the state it has reached.
-/

namespace TableMapper

/-- What a run reports while it goes on. -/
inductive Progress
  | introspection (specs : Nat)
  | introspecting (table : String)
  | generation (tables : Nat)
  | generating (table : TableRef)
  | save (files : Nat)
  | saving (file : String)
  | done
deriving Repr, DecidableEq

/-- The wording of a progress report. -/
def Progress.message : Progress → String
  | .introspection specs => "introspection " ++ toString specs
  | .introspecting table => "Introspecting table " ++ table
  | .generation tables => "generation " ++ toString tables
  | .generating table => "Generating files for table " ++ table.display
  | .save files => "save " ++ toString files
  | .saving file => "Saving file " ++ file
  | .done => "done"

/-- The answers to the question whether to stop, by how often it has been
asked before. -/
abbrev StopSignal := Nat → Bool

/-- Never stop. -/
def StopSignal.never : StopSignal := fun _ => false

/-- Stop when asked for longer than a number of times. -/
def StopSignal.after (n : Nat) : StopSignal := fun asked => n ≤ asked

/-- The state of a run. -/
structure RunState where
  tree : FileTree
  warnings : List Warning := []
  files : List WriteOutcome := []
  progress : List Progress := []
  /-- How often the run has asked whether to stop. -/
  asked : Nat := 0
  /-- What root classes declare, by the names of the classes. -/
  inherited : List (String × List String) := []

namespace RunState

/-- The state after further warnings. -/
def warn (s : RunState) (warnings : List Warning) : RunState :=
  { s with warnings := s.warnings ++ warnings }

/-- The properties a root class declares. What a class declares is settled by
the first one seen with its name. -/
def inheritedFrom (s : RunState) (root : RootClass) : List String × RunState :=
  match s.inherited.lookup root.typeName with
  | some properties => (properties, s)
  | none =>
    (root.inherited,
      { s with inherited := s.inherited ++ [(root.typeName, root.inherited)] })

/-- The answer to the question whether to stop. -/
def ask (s : RunState) (stop : StopSignal) : Bool × RunState :=
  (stop s.asked, { s with asked := s.asked + 1 })

/-- The report on the run so far. -/
def report (s : RunState) : Report :=
  ⟨s.files, s.warnings⟩

end RunState

/-- Why a run does not go on. -/
inductive Halt
  | cancelled
  | failed (failure : Failure)
deriving Repr, DecidableEq

/-- **A part of a run.** -/
abbrev Run (α : Type) := ExceptT Halt (StateM RunState) α

namespace Run

/-- A result that may be a failure. -/
def ofResult {α : Type} : Except Failure α → Run α
  | .ok a => pure a
  | .error failure => throw (.failed failure)

/-- A progress report. -/
def announce (p : Progress) : Run Unit :=
  modify fun s => { s with progress := s.progress ++ [p] }

/-- Further warnings. -/
def warn (warnings : List Warning) : Run Unit :=
  modify (·.warn warnings)

/-- Asks whether to stop. -/
def mayGoOn (stop : StopSignal) : Run Unit := do
  let (stops, s) := (← get).ask stop
  set s
  if stops then throw .cancelled

end Run

end TableMapper
