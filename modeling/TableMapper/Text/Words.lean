import TableMapper.Text.Blank
import TableMapper.Text.Cased
import TableMapper.Text.Letter

/-!
# Words of an identifier, and camel case

A name such as `order_itemID` or `XMLHttpRequest` is a sequence of words.
Everything that is no letter and no number separates words. Inside a run of
letters and numbers a word ends

* before an upper-case letter, when the last cased letter is lower case, and
* before the last of several upper-case letters, when a lower-case one
  follows: `XMLHttp` is `XML` and `Http`.

Numbers and uncased letters belong to the word they follow.
-/

namespace TableMapper.Text

/-- The case of the last cased letter of a word begun. -/
inductive LetterCase
  | uncased
  | lower
  | upper
deriving Repr, DecidableEq

/-- The case after one more character: an uncased one leaves it. -/
def LetterCase.after (mode : LetterCase) (c : Char) : LetterCase :=
  if isLowercase c then .lower else if isUppercase c then .upper else mode

/-- The words of a run of letters and numbers, where `word` holds the word
begun, last character first, and `mode` its case. -/
def wordsFrom (mode : LetterCase) (word : List Char) : List Char → List (List Char)
  | [] => if word.isEmpty then [] else [word.reverse]
  | [c] => [(c :: word).reverse]
  | c :: next :: rest =>
    if mode.after c == .lower && isUppercase next then
      (c :: word).reverse :: wordsFrom .uncased [] (next :: rest)
    else if mode == .upper && isUppercase c && isLowercase next then
      word.reverse :: wordsFrom .uncased [c] (next :: rest)
    else
      wordsFrom (mode.after c) (c :: word) (next :: rest)

/-- **The words of a name**, in order. -/
def words (name : String) : List (List Char) :=
  (pieces (fun c => !isAlphanumeric c) name.toList).flatMap (wordsFrom .uncased [])

/-- A word in lower case. A final capital sigma takes its final form. -/
def lowerWord : List Char → List Char
  | [] => []
  | ['Σ'] => ['ς']
  | c :: rest => lower c ++ lowerWord rest

/-- A word with its first letter in upper case and the rest in lower. -/
def capitalWord : List Char → List Char
  | [] => []
  | c :: rest => upper c ++ lowerWord rest

/-- **Pascal case:** every word capitalised, nothing between them. -/
def pascalCase (name : String) : String :=
  String.ofList ((words name).flatMap capitalWord)

/-- **Camel case:** the first word in lower case, the others capitalised. -/
def camelCase (name : String) : String :=
  match words name with
  | [] => ""
  | first :: rest => String.ofList (lowerWord first ++ rest.flatMap capitalWord)

end TableMapper.Text
