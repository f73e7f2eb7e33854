import TableMapper.Proofs.Text.Trimming

/-!
# What occurs in parts of a text

A text that does not contain a separator occurs in what is joined by it only
if it occurs in one of the parts (`infix_append_cons`). So **what contains
no blanks occurs in the lines of a text exactly if it occurs in the text**
(`exists_line_infix`), and trimming loses none of it (`infix_trim`).
-/

namespace TableMapper.Text

variable {sub cs ds blanks : List Char} {c : Char} {p : Char → Bool}

/-! ## Separators -/

/-- What begins in front of a character that it does not contain ends there. -/
theorem prefix_of_not_mem (hc : c ∉ sub) (h : sub <+: cs ++ c :: ds) : sub <+: cs := by
  rcases Nat.lt_or_ge cs.length sub.length with hlt | hle
  · have hfront : cs ++ [c] <+: cs ++ c :: ds := ⟨ds, by simp⟩
    obtain ⟨more, rfl⟩ :=
      List.prefix_of_prefix_length_le hfront h (by simpa using Nat.succ_le_of_lt hlt)
    exact absurd (List.mem_append_left more (List.mem_append_right cs List.mem_cons_self)) hc
  · exact List.prefix_of_prefix_length_le h (List.prefix_append _ _) hle

/-- **What does not contain a separator does not stand on both sides of it.** -/
theorem infix_append_cons (hc : c ∉ sub) : sub <:+: cs ++ c :: ds ↔ sub <:+: cs ∨ sub <:+: ds := by
  constructor
  · intro h
    induction cs with
    | nil =>
      rcases List.infix_cons_iff.1 h with hprefix | hpart
      · exact .inl (prefix_of_not_mem hc (show sub <+: [] ++ c :: ds from hprefix)).isInfix
      · exact .inr hpart
    | cons d cs ih =>
      rcases List.infix_cons_iff.1 h with hprefix | hpart
      · exact .inl (prefix_of_not_mem hc (List.cons_append ▸ hprefix)).isInfix
      · exact (ih hpart).imp_left fun hcs => hcs.trans (List.suffix_cons d cs).isInfix
  · rintro (h | h)
    · exact h.trans (List.prefix_append cs _).isInfix
    · exact h.trans ⟨cs ++ [c], [], by simp⟩

/-- What occurs in a text that does not contain its characters is empty. -/
theorem eq_nil_of_isInfix (h : sub <:+: cs) (hsub : ∀ c ∈ sub, c ∉ cs) : sub = [] :=
  List.eq_nil_iff_forall_not_mem.2 fun c hc => hsub c hc (h.subset hc)

/-- What contains no separators occurs in a text exactly if it occurs in one
of its pieces. -/
theorem exists_piece_infix (hsub : ∀ c ∈ sub, p c = false) :
    (∃ piece ∈ pieces p cs, sub <:+: piece) ↔ sub <:+: cs := by
  induction hn : cs.length using Nat.strong_induction_on generalizing cs with
  | _ n ih =>
    cases hrest : cs.dropWhile (!p ·) with
    | nil =>
      have hnone : ∀ c ∈ cs, p c = false := by simpa using hrest
      rw [pieces_of_forall hnone]
      simp
    | cons c rest =>
      have hc : p c = true := by
        have hhead := List.head?_dropWhile_not (!p ·) cs
        simpa [hrest] using hhead
      obtain ⟨front, rfl⟩ : ∃ front, cs = front ++ c :: rest :=
        ⟨cs.takeWhile (!p ·), by rw [← hrest, List.takeWhile_append_dropWhile]⟩
      have hne : c ∉ sub := fun hmem => by simp [hsub c hmem] at hc
      have hlength : (front ++ c :: rest).length = front.length + (rest.length + 1) := by simp
      rw [pieces_append_cons hc, infix_append_cons hne, ← ih front.length (by omega) rfl,
        ← ih rest.length (by omega) rfl]
      simp only [List.mem_append, or_and_right, exists_or]

/-- What does not contain a separator occurs in what is joined by it exactly
if it occurs in one of the parts. -/
theorem exists_part_infix (hc : c ∉ sub) (hne : sub ≠ []) (parts : List (List Char)) :
    (∃ part ∈ parts, sub <:+: part) ↔ sub <:+: [c].intercalate parts := by
  induction parts with
  | nil => simpa using hne
  | cons part parts ih =>
    cases parts with
    | nil => simp
    | cons second parts =>
      rw [List.intercalate_cons_cons, List.append_assoc, List.singleton_append,
        infix_append_cons hc, ← ih]
      simp

/-- A part stands in what it is joined into. -/
theorem infix_intercalate {α : Type} {separator part : List α} {parts : List (List α)}
    (h : part ∈ parts) : part <:+: separator.intercalate parts := by
  induction parts with
  | nil => simp at h
  | cons first parts ih =>
    rcases List.mem_cons.1 h with rfl | h
    · cases parts with
      | nil => exact ⟨[], [], by rw [List.intercalate_singleton, List.nil_append, List.append_nil]⟩
      | cons next parts =>
        rw [List.intercalate_cons_cons, List.append_assoc]
        exact (List.prefix_append _ _).isInfix
    · rw [List.intercalate_cons_of_ne_nil (List.ne_nil_of_mem h)]
      exact (ih h).trans (List.suffix_append _ _).isInfix

/-! ## Blanks -/

section

variable (hsub : ∀ c ∈ sub, isBlank c = false)
include hsub

/-- Blanks behind a text make nothing else occur in it. -/
theorem infix_append_blanks (hblanks : Blank blanks) : sub <:+: cs ++ blanks ↔ sub <:+: cs := by
  refine ⟨fun h => ?_, fun h => h.trans (List.prefix_append cs blanks).isInfix⟩
  cases blanks with
  | nil => rwa [List.append_nil] at h
  | cons c blanks =>
    have hnone : ∀ d ∈ sub, d ∉ c :: blanks := fun d hd => hblanks.not_mem (hsub d hd)
    rcases (infix_append_cons fun hc => hnone c hc List.mem_cons_self).1 h with h | h
    · exact h
    · rw [eq_nil_of_isInfix h fun d hd hmem => hnone d hd (List.mem_cons_of_mem c hmem)]
      exact List.nil_infix

/-- **Trimming loses nothing that contains no blanks.** -/
theorem infix_trim : sub <:+: trim cs ↔ sub <:+: cs := by
  obtain ⟨front, behind, hfront, hbehind, hcs⟩ := exists_trim cs
  by_cases hne : sub = []
  · simp [hne]
  · have hwhole : sub <:+: front ++ trim cs ++ behind ↔ sub <:+: trim cs := by
      rw [infix_append_blanks hsub hbehind,
        infix_blanks_append hfront (fun c hc => hsub c (List.mem_of_mem_head? hc)) hne]
    rw [← hwhole, ← hcs]

/-- **What contains no blanks occurs in the lines of a text exactly if it
occurs in the text.** -/
theorem exists_line_infix (hne : sub ≠ []) (s : String) :
    (∃ line ∈ lines s, sub <:+: line.toList) ↔ sub <:+: s.toList := by
  have hreturn : ∀ line, sub <:+: dropReturn line ↔ sub <:+: line := by
    intro line
    rw [dropReturn]
    split
    next rest hline =>
      have hown : line = rest.reverse ++ ['\r'] := by
        rw [← List.reverse_reverse line, hline, List.reverse_cons]
      rw [hown, infix_append_blanks hsub (show Blank ['\r'] by decide)]
    · rfl
  have hend : ∀ c ∈ sub, (c == '\n') = false := by
    intro c hc
    refine beq_eq_false_iff_ne.2 ?_
    rintro rfl
    exact absurd (hsub _ hc) (by decide)
  rw [← exists_piece_infix hend, lines]
  obtain ⟨front, last, hall⟩ :=
    (List.eq_nil_or_concat (pieces (· == '\n') s.toList)).resolve_left (pieces_ne_nil _ _)
  have hfront : (∃ line ∈ front.map fun line => String.ofList (dropReturn line),
      sub <:+: line.toList) ↔
      ∃ piece ∈ front, sub <:+: piece := by
    simp only [List.mem_map, exists_exists_and_eq_and, String.toList_ofList, hreturn]
  rw [hall]
  simp only [List.concat_eq_append, List.dropLast_concat, List.getLast?_concat, List.mem_append,
    List.mem_singleton, or_and_right, exists_or, exists_eq_left]
  -- an empty last piece is no line
  split
  next hlast =>
    obtain rfl : last = [] := Option.some.inj hlast
    rw [hfront, List.infix_nil, or_iff_left hne]
  next hlast => cases hlast
  next found _ hlast =>
    obtain rfl := Option.some.inj hlast
    simp only [List.mem_append, List.mem_singleton, or_and_right, exists_or, exists_eq_left,
      String.toList_ofList, hfront]

end

end TableMapper.Text
