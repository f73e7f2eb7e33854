/-!
# Markup trees

A mapper document is a tree of elements with attributes in order. Children
are elements, character data, and raw markup taken over from an existing
document.
-/

namespace TableMapper.Markup

/-- A child of an element. -/
inductive Node
  | element (name : String) (attributes : List (String × String)) (children : List Node)
  /-- Character data, escaped when written. -/
  | text (s : String)
  /-- Markup written as it stands. -/
  | raw (s : String)
deriving Repr, BEq, Inhabited

/-- An element. -/
structure Element where
  name : String
  attributes : List (String × String) := []
  children : List Node := []
deriving Repr, BEq, Inhabited

/-- An element as a child of another. -/
def Element.toNode (e : Element) : Node :=
  .element e.name e.attributes e.children

/-- The element that a node is, if it is one. -/
def Node.element? : Node → Option Element
  | .element name attributes children => some ⟨name, attributes, children⟩
  | _ => none

@[simp] theorem Node.element?_toNode (e : Element) : e.toNode.element? = some e := rfl

namespace Element

/-- An element without attributes and children. -/
def named (name : String) : Element :=
  { name }

/-- One more attribute. -/
def attr (e : Element) (name value : String) : Element :=
  { e with attributes := e.attributes ++ [(name, value)] }

/-- One more child element. -/
def child (e : Element) (inner : Element) : Element :=
  { e with children := e.children ++ [inner.toNode] }

/-- One more piece of character data. -/
def text (e : Element) (s : String) : Element :=
  { e with children := e.children ++ [.text s] }

/-- The value of an attribute; of several with a name the first counts. -/
def attribute? (e : Element) (name : String) : Option String :=
  e.attributes.lookup name

/-- The `id` attribute. -/
def id? (e : Element) : Option String :=
  e.attribute? "id"

/-- The children that are elements. -/
def elements (e : Element) : List Element :=
  e.children.filterMap (·.element?)

/-- The first child element with an `id`. -/
def elementById? (e : Element) (id : String) : Option Element :=
  e.elements.find? (·.id? == some id)

end Element

/-- A document: a root element and the identifiers of its type. -/
structure Document where
  root : Element
  publicId : Option String := none
  systemId : Option String := none
deriving Repr, BEq

end TableMapper.Markup
