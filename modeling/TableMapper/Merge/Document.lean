import TableMapper.Markup.Outline
import TableMapper.Markup.Render
import TableMapper.Merge.Fault

/-!
# Merging into an existing mapper document

The fresh document is written in full. Behind its children come, verbatim
and in their old order, the children of the existing root that the fresh
document does not replace: a child is replaced if it carries the `id` of a
fresh one. A document with another root element or another namespace
belongs to something else and is not merged into.
-/

namespace TableMapper.Markup

/-- The root of an existing document must be that of the fresh one. -/
def Document.checkRoot (fresh : Document) (root : Tag) : Except MergeReason Unit :=
  let name := String.ofList root.name
  if name ≠ fresh.root.name then .error (.rootElement name fresh.root.name)
  else
    match root.attribute? "namespace" with
    | .error _ => .error .attribute
    | .ok found =>
      let expected := fresh.root.attribute? "namespace"
      if found = expected then .ok () else .error (.rootNamespace found expected)

/-- How a merge reports that a document cannot be read. -/
def OutlineFault.reason : OutlineFault → MergeReason
  | .malformed position => .malformed position
  | .attribute => .attribute

/-- The `id`s of the children of the root. -/
def Document.ids (d : Document) : List String :=
  d.root.elements.filterMap (·.id?)

/-- A child of the existing root is replaced by a fresh one. -/
def Document.replaces (fresh : Document) (child : Outline.Child) : Bool :=
  child.id.any fresh.ids.contains

/-- The children of an existing document that a merge keeps. -/
def Document.kept (fresh : Document) (existing : String) :
    Except MergeReason (List Outline.Child) := do
  let (outline, fault) := Outline.ofDocument existing
  outline.roots.forM fresh.checkRoot
  match fault with
  | some fault => .error fault.reason
  | none =>
    if outline.roots.isEmpty then .error .noRoot
    else .ok (outline.children.filter (!fresh.replaces ·))

/-- The document with further children of the root, as they stand. -/
def Document.withRaw (d : Document) (texts : List String) : Document :=
  { d with root := { d.root with children := d.root.children ++ texts.map .raw } }

/-- **The text of a fresh document merged into an existing one.** -/
def Document.mergeInto (fresh : Document) (existing : String) : Except MergeReason String := do
  let kept ← fresh.kept existing
  return (fresh.withRaw (kept.map fun child => String.ofList child.text)).render

end TableMapper.Markup
