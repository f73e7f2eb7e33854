import TableMapper.Settings.Basic
import TableMapper.Text.Balanced
import TableMapper.Text.Letter
import TableMapper.Unit.Basic
import TableMapper.Unit.Segment

/-!
# Members of an existing type

A member is recognised again by its key: its name, and for methods and
constructors also the number of parameters. Members whose leading comments
hold the retention tag are generated ones; all others are hand-written.

The key is read off the code of a member, of which only the head counts:
what stands before the first brace, `=` or semicolon.
-/

namespace TableMapper

/-- What identifies a member of a type. -/
structure MemberKey where
  name : String
  /-- The number of parameters of a method or constructor. -/
  parameters : Option Nat := none
deriving Repr, DecidableEq

/-- The key of a field. -/
def Field.key (f : Field) : MemberKey :=
  ⟨f.name, none⟩

/-- The key of a method; a constructor bears the name of its owner. -/
def Method.key (owner : String) (m : Method) : MemberKey :=
  ⟨if m.isConstructor then owner else m.name, some m.parameters.length⟩

namespace MemberKey

/-- A character of an identifier. -/
def isIdentifierChar (c : Char) : Bool :=
  Text.isAlphanumeric c || c == '_' || c == '$'

/-- A character of the name of an annotation. -/
def isMarkChar (c : Char) : Bool :=
  Text.isAlphanumeric c || c == '_' || c == '.'

/-- What follows an annotation at the beginning of some code, its arguments
included. -/
def behindMark : List Char → Option (List Char)
  | '@' :: rest =>
    if "interface".toList.isPrefixOf rest then none
    else
      let behind := Text.trimStart (rest.dropWhile isMarkChar)
      match behind with
      | '(' :: _ => some (Text.dropBalanced '(' ')' 0 behind)
      | _ => some behind
  | _ => none

theorem behindMark_length {cs rest : List Char} (h : behindMark cs = some rest) :
    rest.length < cs.length := by
  unfold behindMark at h
  split at h
  next behind =>
    have h₁ := (List.dropWhile_suffix isMarkChar (l := behind)).length_le
    have h₂ := (List.dropWhile_suffix Text.isBlank (l := behind.dropWhile isMarkChar)).length_le
    split at h
    · simp at h
    · simp only [Text.trimStart] at h
      split at h
      next tail heq =>
        have := Text.dropBalanced_length '(' ')' 0
          ((behind.dropWhile isMarkChar).dropWhile Text.isBlank)
        simp only [Option.some.injEq] at h
        rw [← h, List.length_cons]
        omega
      · simp only [Option.some.injEq] at h
        rw [← h, List.length_cons]
        omega
  · simp at h

/-- Code without its leading blanks and annotations. -/
def skipMarks (cs : List Char) : List Char :=
  match _h : behindMark (Text.trimStart cs) with
  | none => Text.trimStart cs
  | some rest => skipMarks rest
termination_by cs.length
decreasing_by
  have h₁ := behindMark_length _h
  have h₂ := (List.dropWhile_suffix Text.isBlank (l := cs)).length_le
  simp only [Text.trimStart] at h₁
  omega

/-- The last identifier of a text. -/
def lastIdentifier? (cs : List Char) : Option String :=
  let reversed := cs.reverse.dropWhile (!isIdentifierChar ·)
  match reversed.takeWhile isIdentifierChar with
  | [] => none
  | name => some (String.ofList name.reverse)

/-- The words that introduce an inner type, each with the blank behind
it. -/
def typeWords : List String :=
  ["class ", "interface ", "enum ", "record "]

/-- The name of the inner type that a head declares. -/
def innerType? (head : List Char) : Option String :=
  typeWords.findSome? fun word =>
    (Text.splitOnce word.toList head).map fun (_, behind) =>
      String.ofList ((Text.trimStart behind).takeWhile isIdentifierChar)

/-- The parameter list of a head, given what follows its first opening
parenthesis and whether a closing one stands before that. -/
def parameterList (closedBefore : Bool) (behind : List Char) : List Char :=
  match Text.splitLast ')' behind with
  | (some list, _) => list
  | (none, _) => if closedBefore then [] else behind

/-- **The key of a member**, read off its code. -/
def ofCode (code : List Char) : Option MemberKey :=
  let head := (skipMarks code).takeWhile fun c => c != '\x7b' && c != '=' && c != ';'
  match innerType? head with
  | some name => some ⟨name, none⟩
  | none =>
    let front := head.takeWhile (· != '(')
    match head.dropWhile (· != '(') with
    | [] => (lastIdentifier? head).map fun name => ⟨name, none⟩
    | _ :: behind =>
      (lastIdentifier? front).map fun name =>
        ⟨name, some (Text.listItems (parameterList (front.contains ')') behind)).length⟩

end MemberKey

/-- A member of an existing type. -/
structure Member where
  key : Option MemberKey
  /-- It carries the retention tag. -/
  tagged : Bool
  /-- The member with its leading comments, without blanks at the ends. -/
  text : String
deriving Repr, DecidableEq

namespace Member

/-- **The member that a segment holds.** A segment without code, or with a
semicolon only, holds none. -/
def ofSegment? (segment : Source) : Option Member :=
  let code := Source.trimmedCodes segment
  if code.isEmpty || code == [';'] then none
  else
    let leading := segment.takeWhile fun c => Text.isBlank c.code
    some {
      key := MemberKey.ofCode code
      tagged := Text.occursIn Settings.retentionTag.toList (Source.chars leading)
      text := Text.trimmed (Source.text segment) }

/-- **The members of a type body.** -/
def ofBody (body : Source) : List Member :=
  (Source.segments body).filterMap ofSegment?

end Member

end TableMapper
