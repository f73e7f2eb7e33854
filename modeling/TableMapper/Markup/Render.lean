import TableMapper.Markup.Basic

/-!
# The text of a markup document

Elements are indented by two blanks a level, each child on lines of its own,
and the children of the root are separated by blank lines. In character data
the characters `&`, `<` and `>` are escaped, in attribute values also the
double quote.
-/

namespace TableMapper.Markup

/-- One character of character data. -/
def escapeTextChar : Char → List Char
  | '&' => ['&', 'a', 'm', 'p', ';']
  | '<' => ['&', 'l', 't', ';']
  | '>' => ['&', 'g', 't', ';']
  | c => [c]

/-- One character of an attribute value. -/
def escapeAttributeChar : Char → List Char
  | '"' => ['&', 'q', 'u', 'o', 't', ';']
  | c => escapeTextChar c

/-- Escaped character data. -/
def escapeText (s : String) : String :=
  String.ofList (s.toList.flatMap escapeTextChar)

/-- An escaped attribute value. -/
def escapeAttribute (s : String) : String :=
  String.ofList (s.toList.flatMap escapeAttributeChar)

/-- The indentation of a level. -/
def indent (depth : Nat) : String :=
  String.ofList (List.replicate (2 * depth) ' ')

/-- An attribute with the blank before it. -/
def renderAttribute (a : String × String) : String :=
  " " ++ a.1 ++ "=\"" ++ escapeAttribute a.2 ++ "\""

/-- A start tag without its closing bracket. -/
def renderTag (name : String) (attributes : List (String × String)) : String :=
  "<" ++ name ++ String.join (attributes.map renderAttribute)

mutual

/-- The text of a node at a level, without a line end. -/
def Node.render (depth : Nat) : Node → String
  | .element name attributes [] => indent depth ++ renderTag name attributes ++ " />"
  | .element name attributes (first :: rest) =>
    indent depth ++ renderTag name attributes ++ ">" ++
      renderChildren (depth + 1) (first :: rest) ++ "\n" ++ indent depth ++ "</" ++ name ++ ">"
  | .text s => indent depth ++ escapeText s
  | .raw s => indent depth ++ s

/-- The texts of the children of an element, a line end before each. -/
def renderChildren (depth : Nat) : List Node → String
  | [] => ""
  | n :: rest => "\n" ++ Node.render depth n ++ renderChildren depth rest

end

namespace Document

/-- The declaration of the document type, if both identifiers are known. -/
def renderDoctype (d : Document) : String :=
  match d.publicId, d.systemId with
  | some publicId, some systemId =>
    "<!DOCTYPE " ++ d.root.name ++ " PUBLIC \"" ++ publicId ++ "\" \"" ++ systemId ++ "\">\n"
  | _, _ => ""

/-- **The text of the document.** -/
def render (d : Document) : String :=
  "<?xml version=\"1.0\" encoding=\"UTF-8\"?>\n" ++ d.renderDoctype ++
    renderTag d.root.name d.root.attributes ++
    match d.root.children with
    | [] => " />\n"
    | children =>
      ">\n" ++ "\n".intercalate (children.map fun n => n.render 1 ++ "\n") ++ "</" ++
        d.root.name ++ ">\n"

end Document

end TableMapper.Markup
