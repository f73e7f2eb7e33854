import TableMapper.ConfigText.Scalar

/-!
# Reading a configuration text

A text is a sequence of lines: headers, which open a table or one more of
several tables, and assignments to keys of the table that is open. Comments
run to the end of their line.
-/

namespace TableMapper.ConfigText

/-- The text at the end of a comment, which may not hold controls. -/
def skipComment : List Char → Option (List Char)
  | '#' :: rest =>
    let comment := rest.takeWhile fun c => c != '\n' && c != '\r'
    if comment.any isControl then none else some (rest.drop comment.length)
  | cs => some cs

/-- The text behind blanks, comments and line ends. -/
def skipLines : Nat → List Char → Option (List Char)
  | 0, _ => none
  | fuel + 1, cs =>
    match skipComment (skipSpaces cs) with
    | none => none
    | some cs =>
      match lineEnd? cs with
      | some rest => skipLines fuel rest
      | none => some cs

/-- `skipLines` for the whole text. -/
def skipBlankLines (cs : List Char) : Option (List Char) :=
  skipLines (cs.length + 1) cs

mutual

/-- A value of any kind. -/
def readValue : Nat → List Char → Option (Value × List Char)
  | 0, _ => none
  | fuel + 1, cs =>
    match cs with
    | '[' :: rest => readItems fuel [] rest
    | '\x7b' :: rest => readFields fuel [] rest
    | '"' :: _ | '\x27' :: _ => (readString cs).map fun (s, rest) => (.text s, rest)
    | _ => readWord cs

/-- The items of a list up to its closing bracket; a comma may follow the
last one. -/
def readItems : Nat → List Value → List Char → Option (Value × List Char)
  | 0, _, _ => none
  | fuel + 1, items, cs => do
    match ← skipBlankLines cs with
    | ']' :: rest => some (.list items, rest)
    | cs =>
      let (v, rest) ← readValue fuel cs
      match ← skipBlankLines rest with
      | ',' :: rest => readItems fuel (items ++ [v]) rest
      | ']' :: rest => some (.list (items ++ [v]), rest)
      | _ => none

/-- The fields of an inline table up to its closing brace. -/
def readFields : Nat → Fields → List Char → Option (Value × List Char)
  | 0, _, _ => none
  | fuel + 1, fields, cs => do
    match ← skipBlankLines cs with
    | '\x7d' :: rest => some (.table .inline fields, rest)
    | cs =>
      let (path, key, rest) ← readPath cs
      match rest with
      | '=' :: rest =>
        let (v, rest) ← readValue fuel (skipSpaces rest)
        let fields ← assign path key v .inline fields
        match ← skipBlankLines rest with
        | ',' :: rest => readFields fuel fields rest
        | '\x7d' :: rest => some (.table .inline fields, rest)
        | _ => none
      | _ => none

end

/-- The end of a line: blanks, a comment, and a line end or the end of the
text. -/
def endLine (cs : List Char) : Option (List Char) := do
  match ← skipComment (skipSpaces cs) with
  | [] => some []
  | cs => lineEnd? cs

/-- A document being read: the root table, and the path to the open one. -/
structure Document where
  root : Fields
  current : List String

/-- A header. -/
def readHeader (doc : Document) (cs : List Char) : Option (Document × List Char) := do
  match cs with
  | '[' :: rest =>
    let (path, key, rest) ← readPath rest
    match rest with
    | ']' :: ']' :: rest =>
      let root ← openFurther path key .header doc.root
      some (⟨root, path ++ [key]⟩, ← endLine rest)
    | _ => none
  | _ =>
    let (path, key, rest) ← readPath cs
    match rest with
    | ']' :: rest =>
      let root ← openTable path key .header doc.root
      some (⟨root, path ++ [key]⟩, ← endLine rest)
    | _ => none

/-- An assignment. -/
def readAssignment (doc : Document) (cs : List Char) : Option (Document × List Char) := do
  let (path, key, rest) ← readPath cs
  match rest with
  | '=' :: rest =>
    let rest := skipSpaces rest
    let (v, rest) ← readValue (rest.length + 1) rest
    let root ← changeAt false (assign path key v) doc.current .header doc.root
    some ({ doc with root }, ← endLine rest)
  | _ => none

/-- The lines of a document. -/
def readLines : Nat → Document → List Char → Option Fields
  | 0, _, _ => none
  | fuel + 1, doc, cs => do
    match ← skipBlankLines cs with
    | [] => some doc.root
    | '[' :: rest =>
      let (doc, rest) ← readHeader doc rest
      readLines fuel doc rest
    | cs =>
      let (doc, rest) ← readAssignment doc cs
      readLines fuel doc rest

/-- **Reads a configuration text** into the fields of its root table, or
nothing when it is not well formed. A byte order mark may precede it. -/
def read (text : String) : Option Fields :=
  let cs := match text.toList with
    | '\ufeff' :: rest => rest
    | cs => cs
  readLines (cs.length + 1) ⟨[], []⟩ cs

end TableMapper.ConfigText
