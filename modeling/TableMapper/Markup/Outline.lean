import TableMapper.Markup.Attribute
import TableMapper.Text.Blank

/-!
# The outline of an existing document

Of a document that is to be merged only its outline matters: the children of
the root, each verbatim and with its `id`. Comments directly above a child
belong to it. A comment that character data or a blank line separates from
the next child is a child of its own, without `id`.

The outline is a fold over the events. Its state holds the names of the open
elements, the comments that no child has claimed yet, and the child that is
being read; end tags must fit the start tags, but at the end of the text
elements may still be open.
-/

namespace TableMapper.Markup

/-- A child of the root as it stands in the text. -/
structure Outline.Child where
  id : Option String := none
  text : List Char
deriving Repr, DecidableEq

/-- Why a document has no outline. -/
inductive OutlineFault
  /-- The markup is malformed at a byte position. -/
  | malformed (position : Nat)
  | attribute
deriving Repr, DecidableEq

/-- The outline of the part of a document that has been read. -/
structure Outline where
  /-- The names of the open elements, the innermost first. -/
  opened : List (List Char) := []
  /-- The tags of elements that stand in no other. -/
  roots : List Tag := []
  /-- Comments that may belong to the next child, and all text since. -/
  comment : Option (List Char) := none
  /-- The child that is open. -/
  current : Option Outline.Child := none
  /-- The children that are complete. -/
  children : List Outline.Child := []
deriving Repr, DecidableEq

namespace Outline

/-- The comments in front of a child become part of it. -/
def begun (o : Outline) (id : Option String) (text : List Char) : Child :=
  ⟨id, o.comment.getD [] ++ text⟩

/-- The text of a piece goes to the comment and to the child being read. -/
def carry (o : Outline) (text : List Char) : Outline :=
  { o with
    comment := o.comment.map (· ++ text)
    current := o.current.map fun child => { child with text := child.text ++ text } }

/-- Comments that belong to no child stand on their own. -/
def detach (o : Outline) : Outline :=
  match o.comment with
  | none => o
  | some text =>
    { o with comment := none, children := o.children ++ [{ text := Text.trimEnd text }] }

/-- Character data that separates a comment from the next child: any but
blanks, or more than one line end. -/
def separates (content : List Char) : Bool :=
  !content.all Text.isBlank || content.count '\n' > 1

/-- A start tag. -/
def enter (o : Outline) (tag : Tag) (text : List Char) : Except AttributeFault Outline :=
  match o.opened with
  | [] => .ok { o with opened := [tag.name], roots := o.roots ++ [tag] }
  | [root] =>
    (tag.attribute? "id").map fun id =>
      { o with opened := [tag.name, root], comment := none, current := some (o.begun id text) }
  | opened => .ok { o.carry text with opened := tag.name :: opened }

/-- A tag of an element without content. -/
def passEmpty (o : Outline) (tag : Tag) (text : List Char) : Except AttributeFault Outline :=
  match o.opened with
  | [] => .ok { o with roots := o.roots ++ [tag] }
  | [_] =>
    (tag.attribute? "id").map fun id =>
      { o with comment := none, children := o.children ++ [o.begun id text] }
  | _ => .ok (o.carry text)

/-- An end tag; `none` if it does not fit. -/
def leave (o : Outline) (name text : List Char) : Option Outline :=
  match o.opened with
  | [] => none
  | open? :: below =>
    if open? != name then none
    else
      let carried := { o.carry text with opened := below }
      match below with
      | [] => some { o.detach with opened := [] }
      | [_] => some { carried with current := none, children := o.children ++ carried.current.toList }
      | _ => some carried

/-- A comment. -/
def note (o : Outline) (text : List Char) : Outline :=
  match o.opened with
  | [_] => { o with comment := some (o.comment.getD [] ++ text) }
  | _ => o.carry text

/-- Character data. -/
def data (o : Outline) (content text : List Char) : Outline :=
  match o.opened with
  | [_] => if separates content then o.detach else o.carry text
  | _ => o.carry text

/-- **The outline after one more event.** -/
def step (o : Outline) (found : Found) : Except OutlineFault Outline :=
  match found.event with
  | .opening tag => (o.enter tag found.text).mapError fun _ => .attribute
  | .empty tag => (o.passEmpty tag found.text).mapError fun _ => .attribute
  | .closing name =>
    match o.leave name found.text with
    | none => .error (.malformed found.start)
    | some o => .ok o
  | .comment => .ok (o.note found.text)
  | .text content => .ok (o.data content found.text)
  | .other => .ok (o.carry found.text)

/-- The outline after further events, up to the first one that does not
fit. -/
def run (o : Outline) : List Found → Outline × Option OutlineFault
  | [] => (o, none)
  | found :: rest =>
    match o.step found with
    | .error fault => (o, some fault)
    | .ok next => next.run rest

/-- **The outline of a document**, as far as the document can be read, and
the fault that ends the reading, if any. -/
def ofDocument (s : String) : Outline × Option OutlineFault :=
  let reading := Reading.ofDocument s
  let (outline, fault) := run {} reading.events
  (outline, fault.or (reading.malformed.map .malformed))

end Outline

end TableMapper.Markup
