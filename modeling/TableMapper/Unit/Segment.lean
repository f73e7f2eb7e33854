import TableMapper.Text.Blank
import TableMapper.Unit.Source

/-!
# The segments of a type body

The body of a type is cut behind every semicolon and every closing brace
that stand in no inner braces. A semicolon with nothing but blanks between
it and a closing brace belongs to the segment of that brace. The segments
follow one another without gaps from the beginning of the body
(`exists_flatten_append`); what follows the last one is not part of any.
-/

namespace TableMapper.Source

/-- The segments from a place inside one, of which the part read is held in
reverse, with the number of braces open. The brace that closes the body ends
the search. -/
def cutFrom (depth : Nat) (segment : Source) : Source → List Source
  | [] => []
  | c :: rest =>
    if c.code == '\x7b' then cutFrom (depth + 1) (c :: segment) rest
    else if c.code == '\x7d' then
      match depth with
      | 0 => []
      | 1 => (c :: segment).reverse :: cutFrom 0 [] rest
      | depth + 1 => cutFrom depth (c :: segment) rest
    else if c.code == ';' && depth == 0 then (c :: segment).reverse :: cutFrom 0 [] rest
    else cutFrom depth (c :: segment) rest

/-- The code of a segment without blanks at the ends. -/
def trimmedCodes (segment : Source) : List Char :=
  Text.trim segment.codes

/-- A segment that ends with a brace. -/
def endsWithBrace (segment : Source) : Bool :=
  segment.codes.getLast? == some '\x7d'

/-- Semicolons that stand alone behind a brace join its segment. -/
def joinSemicolons : List Source → List Source
  | first :: second :: rest =>
    if endsWithBrace first && trimmedCodes second == [';'] then
      (first ++ second) :: joinSemicolons rest
    else first :: joinSemicolons (second :: rest)
  | segments => segments

/-- **The segments of a type body**, from behind its opening brace. -/
def segments (body : Source) : List Source :=
  joinSemicolons (cutFrom 0 [] body)

theorem flatten_joinSemicolons (all : List Source) :
    (joinSemicolons all).flatten = all.flatten := by
  fun_induction joinSemicolons all <;> simp_all

theorem exists_flatten_cutFrom (depth : Nat) (segment source : Source) :
    cutFrom depth segment source = [] ∨
      ∃ rest, (cutFrom depth segment source).flatten ++ rest = segment.reverse ++ source := by
  fun_induction cutFrom depth segment source with
  | case1 => exact .inl rfl
  | case2 depth segment c rest _ ih => simpa using ih
  | case3 => exact .inl rfl
  | case4 segment c rest _ _ ih =>
    refine .inr ?_
    rcases ih with h | ⟨behind, h⟩
    · exact ⟨rest, by simp [h]⟩
    · exact ⟨behind, by simp [h]⟩
  | case5 segment c rest _ _ depth _ ih => simpa using ih
  | case6 depth segment c rest _ _ _ ih =>
    refine .inr ?_
    rcases ih with h | ⟨behind, h⟩
    · exact ⟨rest, by simp [h]⟩
    · exact ⟨behind, by simp [h]⟩
  | case7 depth segment c rest _ _ _ ih => simpa using ih

/-- **The segments are a front part of the body.** -/
theorem exists_flatten_append (body : Source) :
    ∃ rest, (segments body).flatten ++ rest = body := by
  rw [segments, flatten_joinSemicolons]
  rcases exists_flatten_cutFrom 0 [] body with h | ⟨rest, h⟩
  · exact ⟨body, by simp [h]⟩
  · exact ⟨rest, by simpa using h⟩

end TableMapper.Source
