import TableMapper.Text.Blank
import TableMapper.Text.Cased
import TableMapper.Text.Fold
import TableMapper.Text.WordChar

/-!
# Sets of characters in a pattern

What a single position of a pattern may hold: literals and ranges, the named
classes, and the set operations of bracketed classes. A set under the
case-insensitive flag has every character with a case variant in it.
-/

namespace TableMapper.Pattern

/-- A set of characters. -/
inductive CharSet
  | range (first last : Nat)
  | digit
  | space
  | word
  | letter
  | uppercase
  | lowercase
  | numeric
  | union (a b : CharSet)
  | inter (a b : CharSet)
  | diff (a b : CharSet)
  | exactlyOne (a b : CharSet)
  | complement (a : CharSet)
  | anyCase (a : CharSet)
deriving Repr

namespace CharSet

/-- The set of one character. -/
def single (c : Char) : CharSet :=
  .range c.toNat c.toNat

/-- The empty set. -/
def none : CharSet :=
  .range 1 0

/-- Every character. -/
def all : CharSet :=
  .range 0 0x10FFFF

/-- The union of several sets. -/
def unionOf : List CharSet → CharSet
  | [] => none
  | [a] => a
  | a :: rest => .union a (unionOf rest)

/-- **A code point is in the set.** -/
def has : CharSet → Nat → Bool
  | .range first last, n => first ≤ n && n ≤ last
  | .digit, n => Text.isDecimalDigit (Char.ofNat n)
  | .space, n => Text.isBlank (Char.ofNat n)
  | .word, n => Text.isWordChar (Char.ofNat n)
  | .letter, n => Text.isAlphabetic (Char.ofNat n)
  | .uppercase, n => Text.isUppercase (Char.ofNat n)
  | .lowercase, n => Text.isLowercase (Char.ofNat n)
  | .numeric, n => Text.isNumeric (Char.ofNat n)
  | .union a b, n => a.has n || b.has n
  | .inter a b, n => a.has n && b.has n
  | .diff a b, n => a.has n && !b.has n
  | .exactlyOne a b, n => a.has n != b.has n
  | .complement a, n => !a.has n
  | .anyCase a, n => a.has n || (Text.caseVariants n).any a.has

/-- The number of ranges a set is made of, as a measure of the room its
states take; a named class counts for the many ranges it has. -/
def weight : CharSet → Nat
  | .range first last => if last < 0x80 then 1 else if first == last then 2 else 6
  | .digit => 100
  | .space => 12
  | .word | .letter | .uppercase | .lowercase | .numeric => 500
  | .union a b | .inter a b | .diff a b | .exactlyOne a b => a.weight + b.weight
  | .complement a => a.weight + 8
  | .anyCase a => a.weight

end CharSet

end TableMapper.Pattern
