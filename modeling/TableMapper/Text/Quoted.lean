import TableMapper.Text.Printable

/-!
# Quoted text

How a message shows a text in double quotes: quote and backslash get a
backslash, the common controls their letter, and what is not printable its
code in braces.
-/

namespace TableMapper.Text

/-- The code of a character in lower-case hexadecimal. -/
def hexCode (c : Char) : List Char :=
  Nat.toDigits 16 c.toNat

/-- One character inside double quotes. -/
def quotedChar (c : Char) : List Char :=
  match c with
  | '\x00' => ['\\', '0']
  | '\t' => ['\\', 't']
  | '\r' => ['\\', 'r']
  | '\n' => ['\\', 'n']
  | '\\' => ['\\', '\\']
  | '"' => ['\\', '"']
  | c => if isPlain c then [c] else ['\\', 'u', '{'] ++ hexCode c ++ ['}']

/-- **A text in double quotes.** -/
def quoted (s : String) : String :=
  String.ofList (['"'] ++ s.toList.flatMap quotedChar ++ ['"'])

/-- Quoted texts as a list in brackets. -/
def quotedList (items : List String) : String :=
  "[" ++ ", ".intercalate (items.map quoted) ++ "]"

end TableMapper.Text
