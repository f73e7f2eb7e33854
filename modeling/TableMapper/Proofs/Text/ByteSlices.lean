import TableMapper.Text.Balanced
import Mathlib.Data.List.TakeWhile

/-!
# Slices of a text by its bytes

Places in a text are counted in bytes, and a text can only be cut between two
characters. A slice at other places, beyond the end, or with its end in front
of its beginning, is an error; here there is no such slice (`slice?`). **A
slice exists exactly where the text can be cut at both places, in that order**
(`slice?_eq_some_iff`). What is found in a text is found between characters:
the first and the last character of a class, the first occurrence of a word,
and the bracket that closes the first one opened.
-/

namespace TableMapper.Text

variable {cs front behind mid : List Char} {n start stop : Nat} {c : Char}

/-- The number of bytes of a text. -/
def byteLength : List Char → Nat
  | [] => 0
  | c :: cs => c.utf8Size + byteLength cs

@[simp] theorem byteLength_nil : byteLength [] = 0 := rfl

@[simp] theorem byteLength_cons (c : Char) (cs : List Char) :
    byteLength (c :: cs) = c.utf8Size + byteLength cs := rfl

@[simp] theorem byteLength_append (cs ds : List Char) :
    byteLength (cs ++ ds) = byteLength cs + byteLength ds := by
  induction cs with
  | nil => exact (Nat.zero_add _).symm
  | cons c cs ih => rw [List.cons_append, byteLength_cons, byteLength_cons, ih, Nat.add_assoc]

theorem byteLength_replicate (n : Nat) : byteLength (List.replicate n ' ') = n := by
  induction n with
  | zero => rfl
  | succ n ih =>
    have hsize : ' '.utf8Size = 1 := rfl
    rw [List.replicate_succ, byteLength_cons, ih, hsize, Nat.add_comm]

/-! ## Slices -/

/-- **A text cut at a place**, if that is between two characters. -/
def cutAt? : Nat → List Char → Option (List Char × List Char)
  | 0, cs => some ([], cs)
  | _ + 1, [] => none
  | n + 1, c :: cs =>
    if c.utf8Size ≤ n + 1 then
      (cutAt? (n + 1 - c.utf8Size) cs).map fun (front, behind) => (c :: front, behind)
    else none

/-- What follows a place. -/
def from? (n : Nat) (cs : List Char) : Option (List Char) :=
  (cutAt? n cs).map Prod.snd

/-- What stands in front of a place. -/
def upTo? (n : Nat) (cs : List Char) : Option (List Char) :=
  (cutAt? n cs).map Prod.fst

/-- **What stands between two places.** -/
def slice? (start stop : Nat) (cs : List Char) : Option (List Char) :=
  if start ≤ stop then (upTo? stop cs).bind (from? start) else none

theorem cutAt?_eq_some_iff :
    cutAt? n cs = some (front, behind) ↔ cs = front ++ behind ∧ byteLength front = n := by
  fun_induction cutAt? n cs generalizing front with
  | case1 cs =>
    constructor
    · intro h
      cases h
      exact ⟨rfl, rfl⟩
    · rintro ⟨rfl, hlength⟩
      cases front with
      | nil => rfl
      | cons c front =>
        have hsize := c.utf8Size_pos
        rw [byteLength_cons] at hlength
        omega
  | case2 n =>
    constructor
    · nofun
    · rintro ⟨heq, hlength⟩
      rw [(List.append_eq_nil_iff.1 heq.symm).1] at hlength
      exact absurd hlength (Nat.zero_ne_add_one n)
  | case3 n c cs hle ih =>
    rw [Option.map_eq_some_iff]
    constructor
    · rintro ⟨⟨front', behind'⟩, hcut, heq⟩
      cases heq
      obtain ⟨rfl, hlength⟩ := ih.1 hcut
      refine ⟨rfl, ?_⟩
      rw [byteLength_cons, hlength]
      omega
    · rintro ⟨heq, hlength⟩
      cases front with
      | nil => exact absurd hlength (Nat.zero_ne_add_one n)
      | cons d front =>
        obtain ⟨rfl, hcs⟩ := List.cons.inj heq
        rw [byteLength_cons] at hlength
        exact ⟨(front, behind), ih.2 ⟨hcs, by omega⟩, rfl⟩
  | case4 n c cs hle =>
    constructor
    · nofun
    · rintro ⟨heq, hlength⟩
      cases front with
      | nil => exact absurd hlength (Nat.zero_ne_add_one n)
      | cons d front =>
        obtain ⟨rfl, -⟩ := List.cons.inj heq
        rw [byteLength_cons] at hlength
        omega

theorem from?_eq_some_iff :
    from? n cs = some behind ↔ ∃ front, cs = front ++ behind ∧ byteLength front = n := by
  rw [from?, Option.map_eq_some_iff]
  constructor
  · rintro ⟨⟨front, behind'⟩, hcut, rfl⟩
    exact ⟨front, cutAt?_eq_some_iff.1 hcut⟩
  · rintro ⟨front, h⟩
    exact ⟨(front, behind), cutAt?_eq_some_iff.2 h, rfl⟩

theorem upTo?_eq_some_iff :
    upTo? n cs = some front ↔ ∃ behind, cs = front ++ behind ∧ byteLength front = n := by
  rw [upTo?, Option.map_eq_some_iff]
  constructor
  · rintro ⟨⟨front', behind⟩, hcut, rfl⟩
    exact ⟨behind, cutAt?_eq_some_iff.1 hcut⟩
  · rintro ⟨behind, h⟩
    exact ⟨(front, behind), cutAt?_eq_some_iff.2 h, rfl⟩

/-- **A slice lies between two characters of the text**, with its beginning not
behind its end. -/
theorem slice?_eq_some_iff : slice? start stop cs = some mid ↔
    ∃ front behind, cs = front ++ (mid ++ behind) ∧ byteLength front = start ∧
    byteLength (front ++ mid) = stop := by
  rw [slice?]
  constructor
  · intro h
    split at h
    · obtain ⟨upto, hupto, hfrom⟩ := Option.bind_eq_some_iff.1 h
      obtain ⟨behind, rfl, hstop⟩ := upTo?_eq_some_iff.1 hupto
      obtain ⟨front, rfl, hstart⟩ := from?_eq_some_iff.1 hfrom
      exact ⟨front, behind, List.append_assoc _ _ _, hstart, hstop⟩
    · cases h
  · rintro ⟨front, behind, rfl, rfl, rfl⟩
    rw [if_pos (by rw [byteLength_append]; omega),
      upTo?_eq_some_iff.2 ⟨behind, (List.append_assoc _ _ _).symm, rfl⟩]
    exact from?_eq_some_iff.2 ⟨front, rfl, rfl⟩

@[simp] theorem from?_append (front behind : List Char) :
    from? (byteLength front) (front ++ behind) = some behind :=
  from?_eq_some_iff.2 ⟨front, rfl, rfl⟩

@[simp] theorem upTo?_append (front behind : List Char) :
    upTo? (byteLength front) (front ++ behind) = some front :=
  upTo?_eq_some_iff.2 ⟨behind, rfl, rfl⟩

theorem slice?_append (front mid behind : List Char) :
    slice? (byteLength front) (byteLength front + byteLength mid)
      (front ++ (mid ++ behind)) = some mid :=
  slice?_eq_some_iff.2 ⟨front, behind, rfl, rfl, byteLength_append front mid⟩

/-! ## Characters and words found -/

variable {p : Char → Bool} {sub before after : List Char}

/-- Where the first character of a class stands. -/
def find? (p : Char → Bool) (cs : List Char) : Option Nat :=
  if cs.any p then some (byteLength (cs.takeWhile (!p ·))) else none

/-- Where a word first stands. -/
def findText? (sub cs : List Char) : Option Nat :=
  (splitOnce sub cs).map fun (before, _) => byteLength before

/-- Where a character last stands. -/
def findLast? (c : Char) (cs : List Char) : Option Nat :=
  (splitLast c cs).1.map byteLength

theorem find?_eq_none (h : cs.dropWhile (!p ·) = []) : find? p cs = none := by
  refine if_neg fun hany => ?_
  obtain ⟨c, hc, hp⟩ := List.any_eq_true.1 hany
  simpa [hp] using List.dropWhile_eq_nil_iff.1 h c hc

theorem find?_eq_some (h : cs.dropWhile (!p ·) = c :: behind) :
    find? p cs = some (byteLength (cs.takeWhile (!p ·))) := by
  refine if_pos (List.any_eq_true.2 ⟨c, ?_, ?_⟩)
  · exact (List.dropWhile_suffix _).subset (h ▸ List.mem_cons_self)
  · have hhead := List.head?_dropWhile_not (!p ·) cs
    rw [h] at hhead
    simpa using hhead

/-- What is in front of the first character of a class, or else everything. -/
theorem find?_getD (p : Char → Bool) (cs : List Char) :
    (find? p cs).getD (byteLength cs) = byteLength (cs.takeWhile (!p ·)) := by
  have hcut := List.takeWhile_append_dropWhile (p := (!p ·)) (l := cs)
  cases hdrop : cs.dropWhile (!p ·) with
  | nil =>
    rw [hdrop, List.append_nil] at hcut
    rw [find?_eq_none hdrop, hcut]
    rfl
  | cons c behind =>
    rw [find?_eq_some hdrop]
    rfl

theorem upTo?_find (p : Char → Bool) (cs : List Char) :
    upTo? ((find? p cs).getD (byteLength cs)) cs = some (cs.takeWhile (!p ·)) := by
  rw [find?_getD]
  exact upTo?_eq_some_iff.2 ⟨_, List.takeWhile_append_dropWhile.symm, rfl⟩

theorem eq_of_splitOnce (h : splitOnce sub cs = some (before, after)) :
    cs = before ++ (sub ++ after) := by
  induction cs generalizing before with
  | nil =>
    rw [splitOnce] at h
    split at h
    next hempty =>
      cases h
      rw [List.isEmpty_iff.1 hempty]
      rfl
    · cases h
  | cons c cs ih =>
    rw [splitOnce] at h
    split at h
    next hbegins =>
      obtain ⟨behind, hbehind⟩ := List.isPrefixOf_iff_prefix.1 hbegins
      cases h
      rw [← hbehind, List.drop_left]
      rfl
    · obtain ⟨⟨before', after'⟩, hrest, heq⟩ := Option.map_eq_some_iff.1 h
      cases heq
      rw [ih hrest]
      rfl

/-! ## Brackets -/

/-- Where the bracket ends that closes the first one opened, from a place in a
text on. -/
def balancedEnd? (opening closing : Char) (depth place : Nat) : List Char → Option Nat
  | [] => none
  | c :: cs =>
    if c == opening then balancedEnd? opening closing (depth + 1) (place + c.utf8Size) cs
    else if c == closing then
      if depth ≤ 1 then some (place + 1) else balancedEnd? opening closing (depth - 1)
        (place + c.utf8Size) cs
    else balancedEnd? opening closing depth (place + c.utf8Size) cs

/-- **What follows the bracket is a slice of the text**, if there is such a
bracket. -/
theorem from?_balancedEnd (opening : Char) {closing : Char} (hclosing : closing.utf8Size = 1)
    (front : List Char)
    (depth : Nat) :
    (balancedEnd? opening closing depth (byteLength front) cs).elim (some [])
    (from? · (front ++ cs))
      = some (dropBalanced opening closing depth cs) := by
  induction cs generalizing front depth with
  | nil => rfl
  | cons c cs ih =>
    have hnext : byteLength front + c.utf8Size = byteLength (front ++ [c]) := by simp
    have happend : front ++ c :: cs = front ++ [c] ++ cs := by simp
    rw [balancedEnd?, dropBalanced, hnext, happend]
    split
    · exact ih _ _
    · split
      next hc =>
        split
        · rw [(by rw [byteLength_append, byteLength_cons, beq_iff_eq.1 hc, hclosing]; rfl :
            byteLength front + 1 = byteLength (front ++ [c]))]
          exact from?_append _ _
        · exact ih _ _
      · exact ih _ _

end TableMapper.Text
