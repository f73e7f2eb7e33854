/-!
# Spans of code points

A property of characters is held as an ascending list of spans: every
`stride`-th code point from `first` to `last`. Case properties alternate
along the alphabet, so a stride of two keeps their lists short. A case
mapping is a list of spans with an offset.
-/

namespace TableMapper.Text

/-- Every `stride`-th code point from `first` to `last`. -/
structure Span where
  first : Nat
  last : Nat
  stride : Nat
deriving Repr, DecidableEq

/-- A code point lies on the span. -/
def Span.has (s : Span) (n : Nat) : Bool :=
  s.first ≤ n && n ≤ s.last && (n - s.first) % s.stride == 0

/-- A code point lies on one of the spans, which ascend: the search stops
at the first span that begins behind it. -/
def Span.anyHas : List Span → Nat → Bool
  | [], _ => false
  | s :: rest, n =>
    if n < s.first then false
    else if n ≤ s.last then (n - s.first) % s.stride == 0
    else Span.anyHas rest n

/-- A span whose code points all move by the same offset. -/
structure Shift where
  span : Span
  offset : Int
deriving Repr, DecidableEq

/-- The code point moved by the shift it lies on; one that lies on none
stays. Spans that share an interval differ in stride, so the search goes on
past a span that does not have it. -/
def Shift.apply : List Shift → Nat → Nat
  | [], n => n
  | s :: rest, n =>
    if n < s.span.first then n
    else if s.span.has n then (n + s.offset).toNat
    else Shift.apply rest n

end TableMapper.Text
