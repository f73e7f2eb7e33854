import TableMapper.Ddl.Token
import TableMapper.Text.Blank
import TableMapper.Text.Letter

/-!
# Splitting a script into tokens

Blanks and comments separate tokens and are dropped. A comment runs from
`-- ` or `#` to the end of the line, or between `/*` and `*/`; one that
begins with `/*!` and a version number is script text, and its tokens stand
in its place. A script that ends inside a quoted text, a quoted name or a
comment has no tokens.
-/

namespace TableMapper.Ddl

/-- A character a word begins with. -/
def isWordStart (c : Char) : Bool :=
  Text.isAlphabetic c || c == '_' || c == '$' || c == '@'
    || (0x80 ≤ c.toNat && c.toNat ≤ 0xffff)

/-- A character a word goes on with. -/
def isWordPart (c : Char) : Bool :=
  isWordStart c || c.isDigit

/-- The character a letter behind a backslash stands for. -/
def unescape : Char → Char
  | '0' => '\x00'
  | 'a' => '\x07'
  | 'b' => '\x08'
  | 'f' => '\x0c'
  | 'n' => '\n'
  | 'r' => '\r'
  | 't' => '\t'
  | 'Z' => '\x1a'
  | c => c

/-- **A text up to its closing quote.** A doubled quote stands for one. When
backslashes escape, they do not before the two wildcards of patterns. -/
def scanText (quote : Char) (escapes : Bool) : List Char → Option (List Char × List Char)
  | [] => none
  | [c] =>
    if c == quote then some ([], []) else none
  | c :: d :: rest =>
    if c == quote then
      if d == quote then
        (scanText quote escapes rest).map fun (text, rest) => (quote :: text, rest)
      else some ([], d :: rest)
    else if c == '\\' && escapes then
      (scanText quote escapes rest).map fun (text, rest) =>
        (if d == '%' || d == '_' then c :: d :: text else unescape d :: text, rest)
    else (scanText quote escapes (d :: rest)).map fun (text, rest) => (c :: text, rest)

/-- The text of a block comment and what follows it. -/
def scanComment : List Char → Option (List Char × List Char)
  | '*' :: '/' :: rest => some ([], rest)
  | c :: rest => (scanComment rest).map fun (text, rest) => (c :: text, rest)
  | [] => none

/-- What follows the end of a line comment. -/
def dropLine (cs : List Char) : List Char :=
  (cs.dropWhile (· != '\n')).drop 1

/-- What stands at a position of a script. -/
inductive Lexeme
  | token (t : Token)
  | blank
  /-- A comment whose content is script text. -/
  | hint (script : List Char)

/-- A quoted text as a lexeme. -/
def quotedLexeme (quote : Char) (escapes : Bool) (token : String → Token) (cs : List Char) :
    Option (Lexeme × List Char) :=
  (scanText quote escapes cs).map fun (text, rest) => (.token (token (String.ofList text)), rest)

/-- A word whose first characters are known. -/
def wordLexeme (first cs : List Char) : Lexeme × List Char :=
  (.token (.word (String.ofList (first ++ cs.takeWhile isWordPart))), cs.dropWhile isWordPart)

/-- The exponent at the beginning of a text: an `e`, a sign and digits. -/
def scanExponent : List Char → List Char
  | e :: rest =>
    if e == 'e' || e == 'E' then
      let sign := match rest with
        | '+' :: _ => ['+']
        | '-' :: _ => ['-']
        | _ => []
      let digits := (rest.drop sign.length).takeWhile Char.isDigit
      if digits.isEmpty then [] else e :: sign ++ digits
    else []
  | [] => []

/-- The token before is a word. -/
def endsInWord : Option Token → Bool
  | some (.word _) | some (.quotedWord _) => true
  | _ => false

/-- **A number, a point, or a word that begins with digits.** Digits go on
as a word when letters follow them, and so do digits and an exponent behind
a point. -/
def numberLexeme (previous : Option Token) (cs : List Char) : Option (Lexeme × List Char) :=
  let whole := cs.takeWhile Char.isDigit
  let rest := cs.dropWhile Char.isDigit
  match whole, rest with
  | ['0'], 'x' :: rest =>
    let digits := rest.takeWhile fun c => c.isDigit || ('a' ≤ c && c ≤ 'f') || ('A' ≤ c && c ≤ 'F')
    some (.token (.hex (String.ofList digits)), rest.drop digits.length)
  | [], '.' :: '_' :: rest =>
    if endsInWord previous then some (.token (.symbol "."), '_' :: rest) else none
  | _, _ =>
    let (point, rest) := match rest with
      | '.' :: rest => (['.'], rest)
      | _ => ([], rest)
    if whole.isEmpty && endsInWord previous then some (.token (.symbol "."), rest)
    else
      let fraction := rest.takeWhile Char.isDigit
      let rest := rest.dropWhile Char.isDigit
      let digits := whole ++ point ++ fraction
      if digits == ['.'] then some (.token (.symbol "."), rest)
      else
        let exponent := scanExponent rest
        if exponent.isEmpty && rest.head?.any isWordPart then some (wordLexeme digits rest)
        else
          let rest := rest.drop exponent.length
          let number := String.ofList (digits ++ exponent)
          if !exponent.isEmpty && previous == some (.symbol ".") then
            some (.token (.word number), rest)
          else
            match rest with
            | 'L' :: rest => some (.token (.number number true), rest)
            | _ => some (.token (.number number false), rest)

/-- The operators of more than one character and what they stand for,
longer ones first. -/
def operators : List (String × String) :=
  [("->>", "->>"), ("<=>", "<=>"), ("||/", "||/"), ("->", "->"), ("<=", "<="), ("<>", "<>"),
   ("<<", "<<"), ("<@", "<@"), (">=", ">="), (">>", ">>"), ("=>", "=>"), ("==", "=="),
   ("!=", "<>"), ("!!", "!!"), ("|/", "|/"), ("||", "||"), ("::", "::"), (":=", ":="),
   ("&&", "&&"), ("^@", "^@")]

/-- An operator or any other character by itself. -/
def symbolLexeme (c : Char) (rest : List Char) : Lexeme × List Char :=
  match operators.find? fun (written, _) => written.toList.isPrefixOf (c :: rest) with
  | some (written, meaning) => (.token (.symbol meaning), (c :: rest).drop written.length)
  | none => (.token (.symbol (String.singleton c)), rest)

/-- The content of a block comment: a hint when it begins with an
exclamation mark, less a version number. -/
def commentLexeme : List Char → Lexeme
  | '!' :: text => .hint (text.dropWhile Char.isDigit)
  | _ => .blank

/-- **What stands at the beginning of a text**, given the token directly
before it. -/
def lexeme? (previous : Option Token) (c : Char) (rest : List Char) :
    Option (Lexeme × List Char) :=
  match c, rest with
  | ' ', _ | '\t', _ | '\n', _ | '\r', _ => some (.blank, rest)
  | '#', _ => some (.blank, dropLine rest)
  | '/', '*' :: rest =>
    (scanComment rest).map fun (text, rest) => (commentLexeme text, rest)
  | '-', '-' :: d :: rest =>
    if Text.isBlank d then some (.blank, dropLine (d :: rest))
    else some (.token (.symbol "-"), '-' :: d :: rest)
  | '\x27', _ => quotedLexeme '\x27' true .text rest
  | '"', _ => quotedLexeme '"' true .doubleText rest
  | '\x60', _ => quotedLexeme '\x60' false .quotedWord rest
  | '@', d :: more =>
    if d == '@' then
      match more with
      | e :: after => if e == ' ' then some (.token (.symbol "@@"), more) else some (wordLexeme ['@', '@', e] after)
      | [] => some (.token (.symbol "@@"), [])
    else if d == ' ' || d == '\x27' || d == '"' || d == '\x60' || d == '>' || d == '?' then
      some (.token (.symbol "@"), rest)
    else some (wordLexeme ['@', d] more)
  | '@', [] => some (.token (.symbol "@"), [])
  | '?', _ =>
    let digits := rest.takeWhile Char.isDigit
    some (.token (.placeholder (String.ofList ('?' :: digits))), rest.drop digits.length)
  | _, _ =>
    match c, rest with
    | 'b', '\x27' :: rest | 'B', '\x27' :: rest => quotedLexeme '\x27' false (.bytes '\x27') rest
    | 'b', '"' :: rest | 'B', '"' :: rest => quotedLexeme '"' false (.bytes '"') rest
    | 'n', '\x27' :: rest | 'N', '\x27' :: rest => quotedLexeme '\x27' true .national rest
    | 'x', '\x27' :: rest | 'X', '\x27' :: rest => quotedLexeme '\x27' true .hex rest
    | _, _ =>
      if c.isDigit || c == '.' then numberLexeme previous (c :: rest)
      else if isWordStart c then some (wordLexeme [c] rest)
      else if Text.isBlank c then some (.blank, rest)
      else some (symbolLexeme c rest)

/-- The tokens of a text; every lexeme takes up at least one character. -/
def tokensFrom : Nat → Option Token → List Char → Option (List Token)
  | 0, _, _ => none
  | _ + 1, _, [] => some []
  | fuel + 1, previous, c :: rest => do
    match ← lexeme? previous c rest with
    | (.token t, rest) => return t :: (← tokensFrom fuel (some t) rest)
    | (.blank, rest) => tokensFrom fuel none rest
    | (.hint script, rest) => return (← tokensFrom fuel none script) ++ (← tokensFrom fuel none rest)

/-- **The tokens of a script.** -/
def tokens? (script : String) : Option (List Token) :=
  let cs := script.toList
  tokensFrom (cs.length + 1) none cs

end TableMapper.Ddl
