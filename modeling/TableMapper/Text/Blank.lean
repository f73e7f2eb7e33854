import TableMapper.Text.Span

/-!
# Blank characters, trimming and splitting

Blank means white space of every script, the no-break and ideographic
spaces included. Trimming removes blanks from the ends of a text. Splitting
at a class of characters keeps every piece, empty ones too, so the pieces
and the separators together are the whole text.
-/

namespace TableMapper.Text

/-- The white-space characters. -/
def blanks : List Span :=
  [⟨9, 13, 1⟩, ⟨32, 32, 1⟩, ⟨133, 133, 1⟩, ⟨160, 160, 1⟩, ⟨5760, 5760, 1⟩, ⟨8192, 8202, 1⟩,
   ⟨8232, 8233, 1⟩, ⟨8239, 8239, 1⟩, ⟨8287, 8287, 1⟩, ⟨12288, 12288, 1⟩]

/-- White space of any script. -/
def isBlank (c : Char) : Bool :=
  Span.anyHas blanks c.toNat

/-- A text without its leading blanks. -/
def trimStart (cs : List Char) : List Char :=
  cs.dropWhile isBlank

/-- A text without its trailing blanks. -/
def trimEnd (cs : List Char) : List Char :=
  (cs.reverse.dropWhile isBlank).reverse

/-- A text without the blanks at both ends. -/
def trim (cs : List Char) : List Char :=
  trimEnd (trimStart cs)

/-- `trim` on strings. -/
def trimmed (s : String) : String :=
  String.ofList (trim s.toList)

/-- Nothing but blanks. -/
def isAllBlank (s : String) : Bool :=
  s.toList.all isBlank

/-- **The pieces between the characters of a class.** There is one more
piece than there are characters of the class. -/
def pieces (p : Char → Bool) : List Char → List (List Char)
  | [] => [[]]
  | c :: rest =>
    if p c then [] :: pieces p rest
    else
      match pieces p rest with
      | [] => [[c]]
      | piece :: more => (c :: piece) :: more

theorem pieces_ne_nil (p : Char → Bool) (cs : List Char) : pieces p cs ≠ [] := by
  cases cs with
  | nil => simp [pieces]
  | cons c rest =>
    rw [pieces]
    split
    · simp
    · split <;> simp

/-- `pieces` of a string at one character. -/
def splitAt (c : Char) (s : String) : List String :=
  (pieces (· == c) s.toList).map String.ofList

/-- A line without the carriage return that ends it. -/
def dropReturn (line : List Char) : List Char :=
  match line.reverse with
  | '\r' :: rest => rest.reverse
  | _ => line

/-- **The lines of a text.** A line ends at a line feed, or at a carriage
return and a line feed; a final line feed opens no further line. A carriage
return on a last line without line feed is kept. -/
def lines (s : String) : List String :=
  let all := pieces (· == '\n') s.toList
  let ended := all.dropLast.map fun line => String.ofList (dropReturn line)
  match all.getLast? with
  | some [] | none => ended
  | some last => ended ++ [String.ofList last]

/-- The first occurrence of `sub` splits `cs` into what comes before it and
what comes after it. -/
def splitOnce (sub : List Char) : List Char → Option (List Char × List Char)
  | [] => if sub.isEmpty then some ([], []) else none
  | c :: rest =>
    if sub.isPrefixOf (c :: rest) then some ([], (c :: rest).drop sub.length)
    else (splitOnce sub rest).map fun (before, after) => (c :: before, after)

/-- `sub` occurs in `cs`. -/
def occursIn (sub cs : List Char) : Bool :=
  (splitOnce sub cs).isSome

/-- The text behind the last occurrence of `c`, and the text before it if
`c` occurs. -/
def splitLast (c : Char) (cs : List Char) : Option (List Char) × List Char :=
  let reversed := cs.reverse
  let last := (reversed.takeWhile (· != c)).reverse
  match reversed.dropWhile (· != c) with
  | [] => (none, last)
  | _ :: before => (some before.reverse, last)

end TableMapper.Text
