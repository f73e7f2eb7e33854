import Mathlib.Data.List.TakeWhile
import TableMapper.Text.Blank

/-!
# Trimming and searching texts

Blanks at the ends of a text do not count when it is trimmed
(`trim_blanks_append`, `trim_append_blanks`), and all the characters that
are no blanks stay (`filter_trim`). A text is found in another one exactly
if it is a part of it (`occursIn_iff`).
-/

namespace TableMapper.Text

/-- What holds of all characters of a text is decided by going through the
text, not through all characters there are. -/
instance (priority := high) decidableForallMem {p : Char → Prop} [DecidablePred p]
  (cs : List Char) :
    Decidable (∀ c ∈ cs, p c) :=
  List.decidableBAll p cs

/-- Likewise for the first or the last character of a text. -/
instance (priority := high) decidableForallMemOption {p : Char → Prop} [DecidablePred p]
  (o : Option Char) :
    Decidable (∀ c ∈ o, p c) :=
  o.decidableForallMem

instance (priority := high) decidableExistsMemOption {p : Char → Prop} [DecidablePred p]
  (o : Option Char) :
    Decidable (∃ c ∈ o, p c) :=
  o.decidableExistsMem

/-- Nothing but blanks. -/
def Blank (cs : List Char) : Prop :=
  ∀ c ∈ cs, isBlank c = true

instance (cs : List Char) : Decidable (Blank cs) :=
  inferInstanceAs (Decidable (∀ c ∈ cs, isBlank c = true))

section

variable {cs ds blanks : List Char}

theorem Blank.append (hcs : Blank cs) (hds : Blank ds) : Blank (cs ++ ds) := by
  intro c hc
  rcases List.mem_append.1 hc with hc | hc
  · exact hcs c hc
  · exact hds c hc

theorem Blank.not_mem {c : Char} (h : Blank cs) (hc : isBlank c = false) : c ∉ cs :=
  fun hmem => absurd (h c hmem) (by simp [hc])

/-! ## Blanks at the ends -/

theorem trimStart_blanks_append (h : Blank blanks) (cs : List Char) :
    trimStart (blanks ++ cs) = trimStart cs :=
  List.dropWhile_append_of_pos h

theorem trimStart_of_blank (h : Blank blanks) : trimStart blanks = [] :=
  List.dropWhile_eq_nil_iff.2 h

/-- A text that begins with no blank. -/
theorem trimStart_cons {c : Char} (h : isBlank c = false) (cs : List Char) :
    trimStart (c :: cs) = c :: cs :=
  List.dropWhile_cons_of_neg (by simp [h])

theorem trimEnd_append_blanks (h : Blank blanks) (cs : List Char) :
    trimEnd (cs ++ blanks) = trimEnd cs := by
  rw [trimEnd, trimEnd, List.reverse_append,
    List.dropWhile_append_of_pos fun c hc => h c (List.mem_reverse.1 hc)]

/-- A text that ends with no blank. -/
theorem trimEnd_concat {c : Char} (h : isBlank c = false) (cs : List Char) :
    trimEnd (cs ++ [c]) = cs ++ [c] := by
  rw [trimEnd, List.reverse_append, List.reverse_singleton, List.singleton_append,
    List.dropWhile_cons_of_neg (by simp [h]), List.reverse_cons, List.reverse_reverse]

theorem trim_blanks_append (h : Blank blanks) (cs : List Char) : trim (blanks ++ cs) = trim cs := by
  rw [trim, trimStart_blanks_append h]
  rfl

theorem trim_append_blanks (h : Blank blanks) (cs : List Char) : trim (cs ++ blanks) = trim cs := by
  rw [trim, trim, trimStart, List.dropWhile_append]
  split
  next hempty =>
    rw [show trimStart cs = [] from List.isEmpty_iff.1 hempty, List.dropWhile_eq_nil_iff.2 h]
  · exact trimEnd_append_blanks h _

theorem trim_of_blank (h : Blank blanks) : trim blanks = [] := by
  rw [trim, trimStart_of_blank h]
  rfl

/-- A text that neither begins nor ends with a blank. -/
theorem trim_eq_self (hfirst : ∀ c ∈ cs.head?, isBlank c = false)
    (hlast : ∀ c ∈ cs.getLast?, isBlank c = false) : trim cs = cs := by
  cases cs with
  | nil => rfl
  | cons c cs =>
    rw [trim, trimStart_cons (hfirst c rfl)]
    obtain ⟨front, last, hcs⟩ : ∃ front last, c :: cs = front ++ [last] :=
      ⟨_, _, (List.dropLast_concat_getLast (List.cons_ne_nil c cs)).symm⟩
    rw [hcs] at hlast ⊢
    exact trimEnd_concat (hlast last (by simp)) front

theorem trim_of_forall (h : ∀ c ∈ cs, isBlank c = false) : trim cs = cs :=
  trim_eq_self (fun c hc => h c (List.mem_of_mem_head? hc))
    fun c hc => h c (List.mem_of_mem_getLast? hc)

theorem exists_trimEnd (cs : List Char) : ∃ behind, Blank behind ∧ cs = trimEnd cs ++ behind := by
  refine ⟨(cs.reverse.takeWhile isBlank).reverse, fun c hc => ?_, ?_⟩
  · exact List.mem_takeWhile_imp (List.mem_reverse.1 hc)
  · rw [trimEnd, ← List.reverse_append, List.takeWhile_append_dropWhile, List.reverse_reverse]

/-- A text that begins with no blank begins the same way when trimmed. -/
theorem exists_trim_cons {c : Char} (h : isBlank c = false) (cs : List Char) :
    ∃ rest, trim (c :: cs) = c :: rest := by
  obtain ⟨behind, hbehind, hcs⟩ := exists_trimEnd (c :: cs)
  rw [trim, trimStart_cons h]
  cases hend : trimEnd (c :: cs) with
  | nil =>
    rw [hend] at hcs
    rw [List.nil_append] at hcs
    exact absurd (hcs ▸ List.mem_cons_self) (hbehind.not_mem h)
  | cons d rest =>
    rw [hend] at hcs
    obtain ⟨rfl, -⟩ := List.cons.inj hcs
    exact ⟨rest, rfl⟩

/-- A part of a text that holds no blanks at its ends, in the midst of
blanks. -/
theorem trim_mid {front behind : List Char} (hfront : Blank front) (hbehind : Blank behind)
    (cs : List Char) : trim (front ++ cs ++ behind) = trim cs := by
  rw [trim_append_blanks hbehind, trim_blanks_append hfront]

theorem trim_trimStart (cs : List Char) : trim (trimStart cs) = trim cs := by
  have hblank : Blank (cs.takeWhile isBlank) := fun c hc => List.mem_takeWhile_imp hc
  rw [← trim_blanks_append hblank (trimStart cs), trimStart, List.takeWhile_append_dropWhile]

/-- What is trimmed off are blanks. -/
theorem exists_trim (cs : List Char) :
    ∃ front behind, Blank front ∧ Blank behind ∧ cs = front ++ trim cs ++ behind := by
  obtain ⟨behind, hbehind, hcs⟩ := exists_trimEnd (trimStart cs)
  refine ⟨cs.takeWhile isBlank, behind, fun c hc => List.mem_takeWhile_imp hc, hbehind, ?_⟩
  rw [trim, List.append_assoc, ← hcs, trimStart, List.takeWhile_append_dropWhile]

@[simp] theorem trim_trim (cs : List Char) : trim (trim cs) = trim cs := by
  obtain ⟨front, behind, hfront, hbehind, hcs⟩ := exists_trim cs
  have htrim := congrArg trim hcs
  rw [trim_mid hfront hbehind] at htrim
  exact htrim.symm

theorem filter_dropWhile_isBlank (cs : List Char) :
    (cs.dropWhile isBlank).filter (!isBlank ·) = cs.filter (!isBlank ·) := by
  induction cs with
  | nil => rfl
  | cons c cs ih =>
    by_cases hc : isBlank c = true
    · rw [List.dropWhile_cons_of_pos hc, List.filter_cons_of_neg (by simp [hc]), ih]
    · rw [List.dropWhile_cons_of_neg hc]

/-- **All characters that are no blanks stay.** -/
theorem filter_trim (cs : List Char) : (trim cs).filter (!isBlank ·) = cs.filter (!isBlank ·) := by
  rw [trim, trimEnd, List.filter_reverse, filter_dropWhile_isBlank, List.filter_reverse,
    List.reverse_reverse, trimStart, filter_dropWhile_isBlank]

theorem blank_of_filter_eq_nil (h : cs.filter (!isBlank ·) = []) : Blank cs := by
  intro c hc
  have hneg := List.filter_eq_nil_iff.1 h c hc
  simpa using hneg

/-! ## Texts in other texts -/

/-- **A text occurs in another one exactly if it is a part of it.** -/
theorem occursIn_iff {sub : List Char} : occursIn sub cs = true ↔ sub <:+: cs := by
  induction cs with
  | nil =>
    rw [occursIn, splitOnce, List.infix_nil]
    cases sub <;> simp
  | cons c cs ih =>
    rw [occursIn, splitOnce, List.infix_cons_iff, ← List.isPrefixOf_iff_prefix]
    rw [occursIn] at ih
    split
    next h => simp [h]
    next h => simp [h, ih]

/-- A text without blanks occurs in another one exactly if it occurs behind
blanks in front of that. -/
theorem infix_blanks_append {sub : List Char} (hblanks : Blank blanks)
    (hsub : ∀ c ∈ sub.head?, isBlank c = false) (hne : sub ≠ []) :
    sub <:+: blanks ++ cs ↔ sub <:+: cs := by
  induction blanks with
  | nil => exact Iff.rfl
  | cons b blanks ih =>
    rw [List.cons_append, List.infix_cons_iff,
      ih fun c hc => hblanks c (List.mem_cons_of_mem b hc)]
    refine or_iff_right ?_
    intro hbegins
    obtain ⟨c, rest, rfl⟩ := List.exists_cons_of_ne_nil hne
    obtain ⟨rfl, -⟩ := List.cons_prefix_cons.1 hbegins
    exact absurd (hblanks c List.mem_cons_self) (by simp [hsub c rfl])

end

/-!
## Pieces of texts

What stands in front of a separator and what stands behind it are cut into
pieces apart (`pieces_append_cons`).
-/

section

variable {p : Char → Bool} {c : Char} {cs : List Char}

/-- **Texts with a separator between them are cut each by itself.** -/
theorem pieces_append_cons (hc : p c = true) (cs rest : List Char) :
    pieces p (cs ++ c :: rest) = pieces p cs ++ pieces p rest := by
  induction cs with
  | nil =>
    show pieces p (c :: rest) = [] :: pieces p rest
    rw [pieces, if_pos hc]
  | cons d cs ih =>
    rw [List.cons_append, pieces, pieces]
    split
    · rw [ih]
      rfl
    · obtain ⟨piece, more, hpieces⟩ := List.exists_cons_of_ne_nil (pieces_ne_nil p cs)
      rw [ih, hpieces]
      rfl

/-- A text without separators is one piece. -/
theorem pieces_of_forall (h : ∀ c ∈ cs, p c = false) : pieces p cs = [cs] := by
  induction cs with
  | nil => rfl
  | cons c cs ih =>
    obtain ⟨hc, hcs⟩ := List.forall_mem_cons.1 h
    rw [pieces, if_neg (by simp [hc]), ih hcs]

/-- What a piece holds is in the text, and no separator. -/
theorem mem_of_mem_piece {piece : List Char} (hpiece : piece ∈ pieces p cs) (hc : c ∈ piece) :
    c ∈ cs ∧ p c = false := by
  induction cs generalizing piece with
  | nil =>
    rw [List.mem_singleton.1 hpiece] at hc
    exact absurd hc List.not_mem_nil
  | cons d cs ih =>
    rw [pieces] at hpiece
    split at hpiece
    · rcases List.mem_cons.1 hpiece with rfl | hpiece
      · exact absurd hc List.not_mem_nil
      · obtain ⟨hmem, hp⟩ := ih hpiece hc
        exact ⟨List.mem_cons_of_mem d hmem, hp⟩
    next hd =>
      obtain ⟨first, more, hpieces⟩ := List.exists_cons_of_ne_nil (pieces_ne_nil p cs)
      rw [hpieces] at hpiece ih
      rcases List.mem_cons.1 hpiece with rfl | hpiece
      · rcases List.mem_cons.1 hc with rfl | hc
        · exact ⟨List.mem_cons_self, Bool.eq_false_iff.2 hd⟩
        · obtain ⟨hmem, hp⟩ := ih List.mem_cons_self hc
          exact ⟨List.mem_cons_of_mem d hmem, hp⟩
      · obtain ⟨hmem, hp⟩ := ih (List.mem_cons_of_mem first hpiece) hc
        exact ⟨List.mem_cons_of_mem d hmem, hp⟩

end

end TableMapper.Text
