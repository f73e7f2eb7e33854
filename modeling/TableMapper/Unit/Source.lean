/-!
# Source text with its comments and literals marked

Comments, strings and characters in a source file may hold braces and
semicolons that mean nothing. Every character is therefore marked as code or
as hidden; a hidden character counts as a blank where the structure of the
file is read, while the characters themselves stay (`map_char_markFrom`).
The quotes of a literal are code, the delimiters of a comment are hidden.
Line ends are code wherever they are, unless a backslash stands in front.
-/

namespace TableMapper

/-- A character of a source file. -/
structure SourceChar where
  char : Char
  /-- It belongs to a comment or is the content of a literal. -/
  hidden : Bool
deriving Repr, DecidableEq

/-- The character as far as the structure of the file goes. -/
def SourceChar.code (c : SourceChar) : Char :=
  if c.hidden then ' ' else c.char

/-- A source file, character by character. -/
abbrev Source := List SourceChar

namespace Source

/-- What surrounds a place in a source file. -/
inductive Surrounding
  | code
  | lineComment
  | blockComment
  /-- A string or character literal with its closing quote. -/
  | literal (quote : Char)
  | textBlock
deriving Repr, DecidableEq

/-- A character that counts as code. -/
def shown (c : Char) : SourceChar :=
  ⟨c, false⟩

/-- A character that counts as a blank. -/
def concealed (c : Char) : SourceChar :=
  ⟨c, true⟩

/-- A character inside a comment or a literal. -/
def inside (c : Char) : SourceChar :=
  ⟨c, c != '\n'⟩

/-- The characters from a place on, marked. -/
def markFrom : Surrounding → List Char → Source
  | _, [] => []
  | .code, '/' :: '/' :: rest =>
    concealed '/' :: concealed '/' :: markFrom .lineComment rest
  | .code, '/' :: '*' :: rest =>
    concealed '/' :: concealed '*' :: markFrom .blockComment rest
  | .code, '"' :: '"' :: '"' :: rest =>
    shown '"' :: shown '"' :: shown '"' :: markFrom .textBlock rest
  | .code, c :: rest =>
    shown c :: markFrom (if c == '"' || c == '\x27' then .literal c else .code) rest
  | .lineComment, c :: rest =>
    inside c :: markFrom (if c == '\n' then .code else .lineComment) rest
  | .blockComment, '*' :: '/' :: rest =>
    concealed '*' :: concealed '/' :: markFrom .code rest
  | .blockComment, c :: rest => inside c :: markFrom .blockComment rest
  | .literal quote, '\\' :: c :: rest =>
    concealed '\\' :: concealed c :: markFrom (.literal quote) rest
  | .literal quote, c :: rest =>
    if c == quote then shown c :: markFrom .code rest
    else inside c :: markFrom (.literal quote) rest
  | .textBlock, '"' :: '"' :: '"' :: rest =>
    shown '"' :: shown '"' :: shown '"' :: markFrom .code rest
  | .textBlock, '\\' :: c :: rest =>
    concealed '\\' :: concealed c :: markFrom .textBlock rest
  | .textBlock, c :: rest => inside c :: markFrom .textBlock rest

/-- **A source file with its characters marked.** -/
def ofText (s : String) : Source :=
  markFrom .code s.toList

/-- The characters as they are. -/
def chars (source : Source) : List Char :=
  source.map (·.char)

/-- The characters as far as the structure goes. -/
def codes (source : Source) : List Char :=
  source.map (·.code)

/-- The text as far as the structure goes, with a blank for every byte of a
hidden character, so that places are the same in both texts. -/
def blanked (source : Source) : List Char :=
  source.flatMap fun c => if c.hidden then List.replicate c.char.utf8Size ' ' else [c.char]

/-- The text of a part of a file. -/
def text (source : Source) : String :=
  String.ofList source.chars

/-- Marking leaves the characters as they are. -/
theorem map_char_markFrom (surrounding : Surrounding) (cs : List Char) :
    (markFrom surrounding cs).map (·.char) = cs := by
  fun_induction markFrom surrounding cs <;> simp_all [shown, concealed, inside]

@[simp] theorem text_ofText (s : String) : (ofText s).text = s := by
  simp [text, chars, ofText, map_char_markFrom]

end Source

end TableMapper
