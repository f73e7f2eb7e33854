import TableMapper.Pattern.Search

/-!
# Replacing matches

The replacement is a template: `$1` and `${1}` stand for a group by number,
`$name` and `${name}` for one by name, and `$$` for a dollar sign. A group
that does not exist or took no part is replaced by nothing. A dollar sign
that introduces none of these stands for itself.
-/

namespace TableMapper.Pattern

/-- A letter, digit or underscore, of which a bare group name is made. -/
def isReferenceChar (c : Char) : Bool :=
  c.isAlphanum || c == '_'

/-- A part of a template. -/
inductive Piece
  | literal (c : Char)
  | reference (name : String)
deriving Repr, DecidableEq

/-- The part a template begins with, and the rest. -/
def nextPiece (c : Char) (rest : List Char) : Piece × List Char :=
  if c != '$' then (.literal c, rest)
  else
    match rest with
    | '$' :: rest => (.literal '$', rest)
    | '{' :: inner =>
      let name := inner.takeWhile (· != '}')
      match inner.drop name.length with
      | _ :: after => (.reference (String.ofList name), after)
      | [] => (.literal '$', rest)
    | _ =>
      let name := rest.takeWhile isReferenceChar
      if name.isEmpty then (.literal '$', rest)
      else (.reference (String.ofList name), rest.drop name.length)

theorem nextPiece_length (c : Char) (rest : List Char) :
    (nextPiece c rest).2.length ≤ rest.length := by
  unfold nextPiece
  split
  · simp
  · split
    · simp
    · rename_i inner
      simp only
      split
      · rename_i h
        have := congrArg List.length h
        simp only [List.length_drop, List.length_cons] at this ⊢
        omega
      · simp
    · simp only
      split <;> simp

/-- **The parts of a template.** -/
def template : List Char → List Piece
  | [] => []
  | c :: rest => (nextPiece c rest).1 :: template (nextPiece c rest).2
termination_by cs => cs.length
decreasing_by
  have := nextPiece_length c rest
  simp only [List.length_cons]
  omega

/-- A group number: decimal digits, with a plus sign allowed in front. -/
def groupNumber? (name : String) : Option Nat :=
  let digits := match name.toList with
    | '+' :: rest => rest
    | cs => cs
  if digits.isEmpty || !digits.all Char.isDigit then none
  else
    let n := digits.foldl (fun n d => n * 10 + (d.toNat - 48)) 0
    if n < UInt64.size then some n else none

/-- The text a reference stands for. -/
def Found.groupText (m : Found) (p : Compiled) (text : Array Char) (name : String) : List Char :=
  let index := match groupNumber? name with
    | some n => some n
    | none => p.groupNames.lookup name
  match index with
  | none => []
  | some 0 => (text.extract m.start m.stop).toList
  | some n =>
    match m.groups.lookup n with
    | some (start, stop) => (text.extract start stop).toList
    | none => []

/-- A template filled in for one match. -/
def Found.expand (m : Found) (p : Compiled) (text : Array Char) (pieces : List Piece) : List Char :=
  pieces.flatMap fun
    | .literal c => [c]
    | .reference name => m.groupText p text name

/-- The text from `pos` on with every match replaced. -/
def replaceFrom (p : Compiled) (text : Array Char) (pieces : List Piece) (pos : Nat) :
    List Found → List Char
  | [] => (text.extract pos text.size).toList
  | m :: rest =>
    (text.extract pos m.start).toList ++ m.expand p text pieces ++
      replaceFrom p text pieces m.stop rest

/-- **Replaces every match** by the template. -/
def Compiled.replaceAll (p : Compiled) (text replacement : String) : String :=
  let chars := text.toList.toArray
  String.ofList
    (replaceFrom p chars (template replacement.toList) 0 (p.findAll chars))

end TableMapper.Pattern
