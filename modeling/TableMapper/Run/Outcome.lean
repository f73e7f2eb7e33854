import TableMapper.Run.Warning

/-!
# Outcomes

What became of each artifact of a run, and the report on a run as a whole.
-/

namespace TableMapper

/-- What happened to an artifact. -/
inductive WriteAction
  | created
  | merged
  | overwritten
  /-- Written beside an existing file, under a numbered name. -/
  | renamed
  /-- Nothing is written, on demand. -/
  | planned
  | skipped
deriving Repr, DecidableEq

/-- An action as listings show it. -/
def WriteAction.label : WriteAction → String
  | .created => "created"
  | .merged => "merged"
  | .overwritten => "overwritten"
  | .renamed => "renamed"
  | .planned => "planned"
  | .skipped => "skipped"

/-- A file has been written or was as it should be. -/
def WriteAction.isWritten : WriteAction → Bool
  | .planned | .skipped => false
  | _ => true

/-- What became of an artifact: the action and the path it concerns. -/
structure WriteOutcome where
  action : WriteAction
  path : String
deriving Repr, DecidableEq

/-- **The report on a run.** -/
structure Report where
  /-- One outcome for each artifact, in order. -/
  files : List WriteOutcome := []
  /-- In the order in which they were found. -/
  warnings : List Warning := []
deriving Repr, DecidableEq

/-- The outcomes of files that were written. -/
def Report.written (r : Report) : List WriteOutcome :=
  r.files.filter (·.action.isWritten)

/-- How a report on a cancelled run is announced. -/
def Report.cancelMessage (r : Report) : String :=
  "Generation cancelled after " ++ toString r.files.length ++ " file(s)"

end TableMapper
