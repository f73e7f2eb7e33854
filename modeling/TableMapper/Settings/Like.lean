/-!
# Table name patterns

A configured table name is a pattern: `_` stands for any one character, `%`
for any run of characters, and every other character for itself. The search
is greedy: once the part behind a `%` has been found, up to the next `%`,
earlier ones are not tried again.

A `%` in the name itself is taken by a `%` of the pattern as one character,
before the pattern's `%` is considered as a wildcard.
-/

namespace TableMapper.Like

/-- How far a pattern goes without a wildcard. -/
inductive Progress
  /-- The name is used up; the flag says whether the pattern allows that. -/
  | finished (accepted : Bool)
  /-- A `%` is reached, with the pattern behind it and the name left. -/
  | wildcard (pattern name : List Char)
  /-- The next character does not fit. -/
  | mismatch
deriving Repr, DecidableEq

/-- Takes characters of the name as long as the pattern names them. -/
def advance : List Char → List Char → Progress
  | pattern, [] => .finished (pattern.all (· == '%'))
  | [], _ :: _ => .mismatch
  | p :: pattern, c :: name =>
    if p == '_' || p == c then advance pattern name
    else if p == '%' then .wildcard pattern (c :: name)
    else .mismatch

theorem advance_length {pattern name rest left : List Char}
    (h : advance pattern name = .wildcard rest left) : rest.length < pattern.length := by
  fun_induction advance pattern name with
  | case1 => simp at h
  | case2 => simp at h
  | case3 p pattern c name _ ih =>
    have := ih h
    simp only [List.length_cons]
    omega
  | case4 p pattern c name _ _ =>
    simp only [Progress.wildcard.injEq] at h
    simp [← h.1]
  | case5 => simp at h

/-- Looks for the pattern behind a `%` at every position of the name. -/
def search (pattern name : List Char) : Bool :=
  match _h : advance pattern name with
  | .finished accepted => accepted
  | .wildcard rest left => search rest left
  | .mismatch =>
    match name with
    | [] => false
    | _ :: name => search pattern name
termination_by (pattern.length, name.length)
decreasing_by
  · have := advance_length _h
    simp only [Prod.lex_def]
    omega
  · simp [Prod.lex_def]

/-- **A name fits a pattern.** -/
def fits (pattern name : List Char) : Bool :=
  match advance pattern name with
  | .finished accepted => accepted
  | .wildcard rest left => search rest left
  | .mismatch => false

/-- `fits` on strings, up to the case of `a` to `z` if wanted. -/
def matchesName (pattern name : String) (ignoreCase : Bool) : Bool :=
  if ignoreCase then fits (pattern.toList.map Char.toLower) (name.toList.map Char.toLower)
  else fits pattern.toList name.toList

end TableMapper.Like
