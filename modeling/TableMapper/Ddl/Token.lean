import TableMapper.Text.Ascii

/-!
# Tokens of a MySQL script

Words, literals and symbols. Keywords are words like any other; whether a
word is one depends on where it stands, so a token only says how it was
written. Between backquotes a word is never a keyword.
-/

namespace TableMapper.Ddl

/-- A token of a script. -/
inductive Token
  | word (text : String)
  /-- A word between backquotes. -/
  | quotedWord (text : String)
  /-- A number, with the mark of a long one. -/
  | number (digits : String) (long : Bool)
  /-- A text between apostrophes. -/
  | text (value : String)
  /-- A text between double quotes. -/
  | doubleText (value : String)
  /-- A byte string, with its quote. -/
  | bytes (quote : Char) (value : String)
  | national (value : String)
  | hex (value : String)
  | placeholder (name : String)
  | symbol (text : String)
deriving Repr, DecidableEq, Inhabited

/-- **Doubles the quotes of a text** that stands between quotes. A quote
that a second one or a backslash escapes already is left as it is. -/
def escapeQuotes (quote : Char) (escaped : Bool) : List Char → List Char
  | [] => []
  | [c] => if c == quote && !escaped then [c, c] else [c]
  | c :: d :: rest =>
    if c != quote then c :: escapeQuotes quote (c == '\\') (d :: rest)
    else if escaped then c :: escapeQuotes quote true (d :: rest)
    else if d == quote then c :: d :: escapeQuotes quote false rest
    else c :: c :: escapeQuotes quote false (d :: rest)

/-- A text between quotes. -/
def enclosed (quote : Char) (text : String) : String :=
  String.ofList ([quote] ++ escapeQuotes quote false text.toList ++ [quote])

/-- The word is a given keyword, in any case. -/
def Token.isKeyword (keyword : String) : Token → Bool
  | .word w => Text.sameIgnoringCase w keyword
  | _ => false

/-- **A name in a script**, with the quote it was written in. -/
structure Name where
  text : String
  quote : Option Char
deriving Repr, DecidableEq, Inhabited

/-- How a name is spelled. -/
def Name.spelling (n : Name) : String :=
  match n.quote with
  | some quote => enclosed quote n.text
  | none => n.text

/-- The names of a dotted path, spelled. -/
def Name.path (parts : List Name) : String :=
  ".".intercalate (parts.map spelling)

/-- The name a token stands for, where a name is expected. -/
def Token.name? : Token → Option Name
  | .word w => some ⟨w, none⟩
  | .quotedWord w => some ⟨w, some '\x60'⟩
  | .text w => some ⟨w, some '\x27'⟩
  | .doubleText w => some ⟨w, some '"'⟩
  | _ => none

end TableMapper.Ddl
