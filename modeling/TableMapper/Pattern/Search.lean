import TableMapper.Pattern.Basic

/-!
# Searching with a pattern

An expression that begins at a position may end at several. `Node.ends`
lists them in order of preference, each position once: what follows depends
on the position only, so of two ways to the same position the preferred one
wins. A match is the first end at the leftmost position that has any.

Repetition without bound visits every position once. A pass that takes no
character is followed by no further pass.
-/

namespace TableMapper.Pattern

/-- A position in the text, and the groups filled on the way to it, the last
filled first, as index, start and end. -/
structure Spot where
  pos : Nat
  groups : List (Nat × Nat × Nat)
deriving Repr

/-- The character before a position. -/
def before? (text : Array Char) (pos : Nat) : Option Char :=
  if pos = 0 then none else text[pos - 1]?

/-- A neighbour is in the set. -/
def inSet (set : CharSet) (c : Option Char) : Bool :=
  c.any fun c => set.has c.toNat

/-- The condition holds at a position. -/
def Look.holds (text : Array Char) (pos : Nat) (l : Look) : Bool :=
  let left := before? text pos
  let right := text[pos]?
  match l with
  | .textStart => pos == 0
  | .textEnd => pos == text.size
  | .lineStart => left.all (· == '\n')
  | .lineEnd => right.all (· == '\n')
  | .returnLineStart => left.all fun c => c == '\n' || (c == '\r' && right != some '\n')
  | .returnLineEnd => right.all fun c => c == '\r' || (c == '\n' && left != some '\r')
  | .boundary w => inSet w left != inSet w right
  | .notBoundary w => inSet w left == inSet w right
  | .wordStart w => !inSet w left && inSet w right
  | .wordEnd w => inSet w left && !inSet w right
  | .halfStart w => !inSet w left
  | .halfEnd w => !inSet w right

/-- The spots with the later ones at a position already taken left out. -/
def distinct (spots : List Spot) : List Spot :=
  (spots.foldl (fun kept s => if kept.any (·.pos == s.pos) then kept else s :: kept) []).reverse

/-- Exactly `n` passes. -/
def times (step : Spot → List Spot) : Nat → Spot → List Spot
  | 0, s => [s]
  | n + 1, s => distinct ((step s).flatMap (times step n))

/-- At most `n` passes. -/
def atMost (step : Spot → List Spot) (greedy : Bool) : Nat → Spot → List Spot
  | 0, s => [s]
  | n + 1, s =>
    let further := (step s).flatMap (atMost step greedy n)
    distinct (if greedy then further ++ [s] else s :: further)

/-- Any number of further passes from a spot where one has ended. `visited`
holds the positions where a pass has ended before; every call adds one, so
`fuel` above the length of the text is never used up. -/
def further (step : Spot → List Spot) (greedy : Bool) (start : Nat) :
    Nat → List Nat → Spot → List Spot × List Nat
  | 0, visited, s => ([s], visited)
  | fuel + 1, visited, s =>
    if visited.contains s.pos then ([], visited)
    else
      let next := if s.pos == start then [] else step s
      let (found, visited) := next.foldl
        (fun (found, visited) t =>
          let (more, visited) := further step greedy start fuel visited t
          (found ++ more, visited))
        ([], s.pos :: visited)
      (if greedy then found ++ [s] else s :: found, visited)

/-- One or more passes. -/
def oneOrMore (step : Spot → List Spot) (greedy : Bool) (fuel : Nat) (s : Spot) : List Spot :=
  distinct ((step s).foldl
    (fun (found, visited) t =>
      let (more, visited) := further step greedy s.pos fuel visited t
      (found ++ more, visited))
    ([], [])).1

/-- The passes of a repetition. -/
def passes (step : Spot → List Spot) (fuel least : Nat) (most : Option Nat) (greedy : Bool)
    (s : Spot) : List Spot :=
  match most with
  | some most => distinct ((times step least s).flatMap (atMost step greedy (most - least)))
  | none =>
    match least with
    | 0 =>
      let some := oneOrMore step greedy fuel s
      distinct (if greedy then some ++ [s] else s :: some)
    | least + 1 => distinct ((times step least s).flatMap (oneOrMore step greedy fuel))

/-- **Where an expression that begins at a spot can end**, the preferred end
first. -/
def Node.ends (text : Array Char) : Node → Spot → List Spot
  | .empty, s => [s]
  | .one set, s =>
    if inSet set text[s.pos]? then [{ s with pos := s.pos + 1 }] else []
  | .look l, s => if l.holds text s.pos then [s] else []
  | .group index n, s =>
    (n.ends text s).map fun t => { t with groups := (index, s.pos, t.pos) :: t.groups }
  | .seq a b, s => distinct ((a.ends text s).flatMap fun t => b.ends text t)
  | .alt a b, s => distinct (a.ends text s ++ b.ends text s)
  | .repeated least most greedy n, s =>
    passes (fun t => n.ends text t) (text.size + 2) least most greedy s

/-- A part of the text that matches, with its groups. -/
structure Found where
  start : Nat
  stop : Nat
  groups : List (Nat × Nat × Nat)
deriving Repr

/-- **The leftmost match** that begins in one of the `count` positions from
`start` on. -/
def Compiled.find (p : Compiled) (text : Array Char) (start : Nat) : Nat → Option Found
  | 0 => none
  | count + 1 =>
    match p.root.ends text ⟨start, []⟩ with
    | s :: _ => some ⟨start, s.pos, s.groups⟩
    | [] => p.find text (start + 1) count

/-- The leftmost match at `start` or behind it. -/
def Compiled.findFrom (p : Compiled) (text : Array Char) (start : Nat) : Option Found :=
  p.find text start (text.size + 1 - start)

/-- The pattern matches somewhere in the text. -/
def Compiled.matches (p : Compiled) (text : String) : Bool :=
  (p.findFrom text.toList.toArray 0).isSome

/-- The matches from `start` on that do not overlap, where `last` is the end
of the match before. An empty match where the last one ended does not count;
the search goes on behind it. -/
def Compiled.findAllFrom (p : Compiled) (text : Array Char) :
    Nat → Nat → Option Nat → List Found
  | 0, _, _ => []
  | fuel + 1, start, last =>
    match p.findFrom text start with
    | none => []
    | some m =>
      if m.stop == m.start && last == some m.stop then
        if m.stop ≥ text.size then [] else p.findAllFrom text fuel (m.stop + 1) last
      else m :: p.findAllFrom text fuel m.stop (some m.stop)

/-- **All matches**, from left to right. -/
def Compiled.findAll (p : Compiled) (text : Array Char) : List Found :=
  p.findAllFrom text (2 * text.size + 3) 0 none

end TableMapper.Pattern
