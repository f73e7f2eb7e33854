import TableMapper.Unit.Basic

/-!
# The text of a Java source file

Package, imports, documentation, annotations and header come first, then the
members with a blank line between two of them: fields, methods, and the
members taken over. Each level is indented by four blanks.
-/

namespace TableMapper

/-- The indentation of a member. -/
def memberIndent : String :=
  "    "

/-- The keyword of a visibility with the blank behind it. -/
def Visibility.keyword : Visibility → String
  | .public => "public "
  | .protected => "protected "
  | .private => "private "
  | .package => ""

/-- One line of a documentation comment. -/
def javadocLine (indent line : String) : String :=
  if line.isEmpty then indent ++ " *\n" else indent ++ " * " ++ line ++ "\n"

/-- A documentation comment; nothing for no lines. -/
def renderJavadoc (indent : String) (lines : List String) : String :=
  if lines.isEmpty then ""
  else
    indent ++ "/**\n" ++ String.join (lines.map (javadocLine indent)) ++ indent ++ " */\n"

/-- Annotations, each on its line. -/
def renderAnnotations (indent : String) (annotations : List String) : String :=
  String.join (annotations.map fun a => indent ++ a ++ "\n")

/-- The text of a field. -/
def Field.render (f : Field) : String :=
  renderJavadoc memberIndent f.javadoc ++ renderAnnotations memberIndent f.annotations ++
    memberIndent ++ f.visibility.keyword ++ (if f.isStatic then "static " else "") ++
    (if f.isFinal then "final " else "") ++ f.type.shortName ++ " " ++ f.name ++
    (match f.initializer with
     | some value => " = " ++ value
     | none => "") ++
    ";\n"

/-- The text of a parameter. -/
def Parameter.render (p : Parameter) : String :=
  String.join (p.annotations.map (· ++ " ")) ++ p.type.shortName ++ " " ++ p.name

/-- One line of a method body. -/
def bodyLine (line : String) : String :=
  if line.isEmpty then "\n" else memberIndent ++ memberIndent ++ line ++ "\n"

/-- What follows the parameters of a method. -/
def renderBody : Option (List String) → String
  | none => ";\n"
  | some lines =>
    " \x7b\n" ++ String.join (lines.map bodyLine) ++ memberIndent ++ "\x7d\n"

/-- The text of a method; a constructor bears the name of its owner. -/
def Method.render (owner : JavaType) (m : Method) : String :=
  renderJavadoc memberIndent m.javadoc ++ renderAnnotations memberIndent m.annotations ++
    memberIndent ++ m.visibility.keyword ++ (if m.isStatic then "static " else "") ++
    (match m.returnType with
     | some t => t.shortName ++ " " ++ m.name
     | none => owner.shortName) ++
    "(" ++ ", ".intercalate (m.parameters.map (·.render)) ++ ")" ++ renderBody m.body

namespace JavaUnit

/-- The texts of the members, in order. -/
def memberTexts (u : JavaUnit) : List String :=
  u.fields.map (·.render) ++ u.methods.map (·.render u.type) ++
    u.retained.map fun text => memberIndent ++ text ++ "\n"

/-- The package and import lines. -/
def renderPrelude (u : JavaUnit) : String :=
  (match u.type.packageName? with
   | some package => "package " ++ package ++ ";\n\n"
   | none => "") ++
  (if u.imports.isEmpty then ""
   else String.join (u.imports.map fun name => "import " ++ name ++ ";\n") ++ "\n")

/-- The declaration up to its opening brace. -/
def renderHeader (u : JavaUnit) : String :=
  u.visibility.keyword ++ u.kind.keyword ++ " " ++ u.type.shortName ++
    (match u.superclass with
     | some t => " extends " ++ t.shortName
     | none => "") ++
    (if u.superInterfaces.isEmpty then ""
     else
       (match u.kind with
        | .class => " implements "
        | .interface => " extends ") ++
       ", ".intercalate (u.superInterfaces.map (·.shortName))) ++
    " \x7b\n"

/-- **The text of the file.** -/
def render (u : JavaUnit) : String :=
  u.renderPrelude ++ renderJavadoc "" u.javadoc ++ renderAnnotations "" u.annotations ++
    u.renderHeader ++ "\n".intercalate u.memberTexts ++ "\x7d\n"

end JavaUnit

end TableMapper
