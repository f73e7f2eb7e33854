/-!
# Case-insensitive comparison

SQL names and keywords are compared without regard to the case of the
letters `a` to `z`; every other character counts as it stands. Upper and
lower form in this module change those letters only.
-/

namespace TableMapper.Text

/-- The text with `A` to `Z` in lower case. -/
def asciiLower (s : String) : String :=
  String.ofList (s.toList.map Char.toLower)

/-- The text with `a` to `z` in upper case. -/
def asciiUpper (s : String) : String :=
  String.ofList (s.toList.map Char.toUpper)

/-- Equal up to the case of `a` to `z`. -/
def sameIgnoringCase (a b : String) : Bool :=
  a.toList.map Char.toLower == b.toList.map Char.toLower

@[simp] theorem sameIgnoringCase_self (a : String) : sameIgnoringCase a a = true := by
  simp [sameIgnoringCase]

theorem sameIgnoringCase_comm (a b : String) :
    sameIgnoringCase a b = sameIgnoringCase b a := by
  simp only [sameIgnoringCase, Bool.beq_comm]

/-- A letter `a` to `z` or `A` to `Z`. -/
def isAsciiLetter (c : Char) : Bool :=
  c.isAlpha

/-- A letter or a digit `0` to `9`. -/
def isAsciiAlphanumeric (c : Char) : Bool :=
  c.isAlphanum

end TableMapper.Text
