/-!
# Why a merge fails

A merge that cannot be done without losing hand-written content is not done
at all. The reasons are those of the two kinds of files.
-/

namespace TableMapper

/-- Why an existing file cannot be merged into. -/
inductive MergeReason
  | noDeclaration
  | declaredAs (old fresh : String)
  | superclass (old fresh : Option String)
  | malformed (position : Nat)
  | attribute
  | noRoot
  | rootElement (old fresh : String)
  | rootNamespace (old fresh : Option String)
deriving Repr, DecidableEq

/-- An optional name as messages show it. -/
def nameOrNone (name : Option String) : String :=
  name.getD "<none>"

/-- The wording of a reason. -/
def MergeReason.message : MergeReason → String
  | .noDeclaration => "no type declaration found"
  | .declaredAs old fresh => "declared as " ++ old ++ ", regenerated as " ++ fresh
  | .superclass old fresh =>
    "superclass is " ++ nameOrNone old ++ ", regenerated as " ++ nameOrNone fresh
  | .malformed position => "malformed XML near byte " ++ toString position
  | .attribute => "bad attribute"
  | .noRoot => "no root element"
  | .rootElement old fresh => "root element is <" ++ old ++ ">, expected <" ++ fresh ++ ">"
  | .rootNamespace old fresh =>
    "namespace is " ++ nameOrNone old ++ ", expected " ++ nameOrNone fresh

/-- A file that cannot be merged into. -/
structure MergeFault where
  file : String
  reason : MergeReason
deriving Repr, DecidableEq

/-- How a failed merge is reported. -/
def MergeFault.message (e : MergeFault) : String :=
  "Cannot merge " ++ e.file ++ ": " ++ e.reason.message

end TableMapper
