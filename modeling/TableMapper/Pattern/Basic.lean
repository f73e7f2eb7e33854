import TableMapper.Pattern.CharSet

/-!
# Patterns

The tree of a regular expression, as the configuration uses it to ignore and
rename columns. There are no back references and no look-around beyond the
anchors and word boundaries, so what follows a match depends on its end
position only.
-/

namespace TableMapper.Pattern

/-- A condition on a position, which takes up no character. -/
inductive Look
  | textStart
  | textEnd
  | lineStart
  | lineEnd
  /-- As `lineStart`, with a carriage return counting as a line end too. -/
  | returnLineStart
  | returnLineEnd
  | boundary (w : CharSet)
  | notBoundary (w : CharSet)
  | wordStart (w : CharSet)
  | wordEnd (w : CharSet)
  | halfStart (w : CharSet)
  | halfEnd (w : CharSet)
deriving Repr

/-- A regular expression. -/
inductive Node
  | empty
  | one (set : CharSet)
  | look (condition : Look)
  | group (index : Nat) (inner : Node)
  | seq (first second : Node)
  | alt (first second : Node)
  /-- At least `least` and, if given, at most `most` times; a greedy one
  prefers more. -/
  | repeated (least : Nat) (most : Option Nat) (greedy : Bool) (inner : Node)
deriving Repr

namespace Node

/-- Items one after the other. -/
def sequence : List Node → Node
  | [] => .empty
  | [n] => n
  | n :: rest => .seq n (sequence rest)

/-- Alternatives, the first preferred. -/
def alternatives : List Node → Node
  | [] => .empty
  | [n] => n
  | n :: rest => .alt n (alternatives rest)

/-- The room the expression takes once every counted repetition is written
out. -/
def weight : Node → Nat
  | .empty => 1
  | .one set => set.weight
  | .look _ => 1
  | .group _ n => n.weight + 2
  | .seq a b => a.weight + b.weight
  | .alt a b => a.weight + b.weight + 1
  | .repeated least most _ n => n.weight * max 1 (max least (most.getD (least + 1))) + 1

end Node

/-- A readable pattern: its tree and the names of its groups. -/
structure Compiled where
  root : Node
  groupNames : List (String × Nat)
deriving Repr

/-- Why a pattern cannot be used. -/
inductive Fault
  | repetitionMissing
  | repetitionUnclosed
  | countEmpty
  | countInvalid
  | groupUnopened
  | groupUnclosed
  | groupName
  | groupNameDuplicate
  | lookAround
  | flag
  | classUnclosed
  | classRange
  | escapeUnfinished
  | escapeUnknown
  | backReference
  | codePoint
  | property
  | notText
  | tooLarge
deriving Repr, DecidableEq

end TableMapper.Pattern
