import TableMapper.Text.Blank

/-!
# Brackets

Skipping a bracketed part, and splitting at the commas that stand in no
brackets.
-/

namespace TableMapper.Text

/-- What follows the bracket that closes the first one opened. With
unmatched brackets nothing follows. -/
def dropBalanced (opening closing : Char) (depth : Nat) : List Char → List Char
  | [] => []
  | c :: rest =>
    if c == opening then dropBalanced opening closing (depth + 1) rest
    else if c == closing then
      if depth ≤ 1 then rest else dropBalanced opening closing (depth - 1) rest
    else dropBalanced opening closing depth rest

theorem dropBalanced_length (opening closing : Char) (depth : Nat) (cs : List Char) :
    (dropBalanced opening closing depth cs).length ≤ cs.length := by
  fun_induction dropBalanced opening closing depth cs <;> simp_all <;> omega

/-- How much deeper in angle brackets and parentheses a character leads. -/
def nesting (c : Char) : Int :=
  if c == '<' || c == '(' then 1 else if c == '>' || c == ')' then -1 else 0

/-- The items of a list from a place inside an item, of which the part read
is held in reverse. -/
def itemsFrom (depth : Int) (item : List Char) : List Char → List (List Char)
  | [] => if item.all isBlank then [] else [trim item.reverse]
  | c :: rest =>
    if c == ',' && depth == 0 then trim item.reverse :: itemsFrom depth [] rest
    else itemsFrom (depth + nesting c) (c :: item) rest

/-- **The items of a list with commas**, where a comma in angle brackets or
parentheses separates nothing. A last item that is blank is no item. -/
def listItems (cs : List Char) : List (List Char) :=
  itemsFrom 0 [] cs

end TableMapper.Text
