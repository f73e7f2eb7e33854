import TableMapper.Proofs.Unit.Marking
import TableMapper.Text.Blank
import TableMapper.Unit.Render

/-!
# Documentation comments as they are written

A written documentation comment is blank as far as the structure of the
file goes, provided that no line of it ends the comment. **A text that is
blank as code is silent** (`Silent`): it changes nothing of what follows
it, and nothing can be read from it but blanks. Silent texts can be put one
behind the other, and a documentation comment is one (`silent_javadoc`).
-/

namespace TableMapper.Source

/-- A text that does not end a comment in which it stands, whatever follows
it. -/
def Enclosed (cs : List Char) : Prop :=
  ∀ behind, markFrom .blockComment (cs ++ behind) = cs.map inside ++ markFrom .blockComment behind

/-- **A text that is blank as code**, and leaves the marking of what follows
as it is. -/
structure Silent (cs : List Char) : Prop where
  settled : Settled cs
  blank : ∀ c ∈ markFrom .code cs, Text.isBlank c.code = true

section

variable {cs ds : List Char} {c : Char}

/-! ## Inside a comment -/

theorem Enclosed.append (hcs : Enclosed cs) (hds : Enclosed ds) : Enclosed (cs ++ ds) := by
  intro behind
  rw [List.append_assoc, hcs, hds, List.map_append, List.append_assoc]

/-- A text without the end of a comment, in front of a character that is no
part of such an end. -/
theorem enclosed_concat (h : ¬ ['*', '/'] <:+: cs) (hstar : c ≠ '*') (hslash : c ≠ '/') :
    Enclosed (cs ++ [c]) := by
  intro behind
  induction cs with
  | nil =>
    show markFrom .blockComment (c :: behind) = inside c :: markFrom .blockComment behind
    rw [markFrom]
    exact fun _ hc => absurd hc hstar
  | cons d cs ih =>
    have hcs : ¬ ['*', '/'] <:+: cs := fun hpart => h (hpart.trans (List.suffix_cons d cs).isInfix)
    show markFrom .blockComment (d :: (cs ++ [c] ++ behind)) = inside d :: _
    rw [markFrom, ih hcs]
    · rfl
    · rintro rest rfl hrest
      -- a slash behind the star would end the comment
      cases cs with
      | nil => exact hslash (List.cons.inj hrest).1
      | cons e cs =>
        obtain ⟨rfl, -⟩ := List.cons.inj hrest
        exact h (List.prefix_append ['*', '/'] cs).isInfix

theorem not_infix_of_not_mem (h : '/' ∉ cs) : ¬ ['*', '/'] <:+: cs :=
  fun hpart => h (hpart.subset (by simp))

theorem isBlank_inside (c : Char) : Text.isBlank (inside c).code = true := by
  by_cases hc : c = '\n'
  · subst hc
    decide
  · have hhidden : (inside c).hidden = true := by simp [inside, hc]
    rw [SourceChar.code, if_pos hhidden]
    decide

theorem isBlank_map_inside (cs : List Char) : ∀ c ∈ cs.map inside, Text.isBlank c.code = true :=
  List.forall_mem_map.2 fun c _ => isBlank_inside c

/-! ## Silent texts -/

/-- A text that is marked the same way whatever follows it, without leaving
code. -/
theorem silent_of_marks {marks : Source}
    (hmark : ∀ behind, markFrom .code (cs ++ behind) = marks ++ markFrom .code behind)
    (hblank : ∀ c ∈ marks, Text.isBlank c.code = true) : Silent cs := by
  have hown : markFrom .code cs = marks := by simpa [markFrom] using hmark []
  exact ⟨fun behind => by rw [hmark, hown], by rwa [hown]⟩

theorem Silent.append (hcs : Silent cs) (hds : Silent ds) : Silent (cs ++ ds) where
  settled := hcs.settled.append hds.settled
  blank := by
    intro c hc
    rw [hcs.settled, List.mem_append] at hc
    rcases hc with hc | hc
    · exact hcs.blank c hc
    · exact hds.blank c hc

theorem isInert_of_isBlank (h : Text.isBlank c = true) : isInert c = true := by
  have hne : ∀ d, Text.isBlank d = false → c ≠ d := by
    rintro d hd rfl
    exact absurd h (by simp [hd])
  simp [isInert, hne '"' (by decide), hne '\x27' (by decide), hne '/' (by decide)]

theorem silent_of_blank (h : ∀ c ∈ cs, Text.isBlank c = true) : Silent cs where
  settled := settled_of_inert fun c hc => isInert_of_isBlank (h c hc)
  blank := by
    rw [markFrom_of_inert fun c hc => isInert_of_isBlank (h c hc)]
    intro c hc
    obtain ⟨d, hd, rfl⟩ := List.mem_map.1 hc
    exact h d hd

/-- A comment is silent if it ends with its own end. -/
theorem silent_of_markFrom (h : ∀ behind, markFrom .blockComment (cs ++ '*' :: '/' :: behind)
      = cs.map inside ++ concealed '*' :: concealed '/' :: markFrom .code behind) :
    Silent (['/', '*'] ++ cs ++ ['*', '/']) := by
  refine @silent_of_marks _
    ([concealed '/', concealed '*'] ++ cs.map inside ++ [concealed '*', concealed '/']) ?_ ?_
  · intro behind
    rw [List.append_assoc, List.append_assoc]
    show concealed '/' :: concealed '*' :: markFrom .blockComment (cs ++ '*' :: '/' :: behind) = _
    rw [h]
    simp
  · rw [List.forall_mem_append, List.forall_mem_append]
    exact ⟨⟨by decide, isBlank_map_inside cs⟩, by decide⟩

/-- **A comment is silent.** -/
theorem silent_comment (h : Enclosed cs) : Silent (['/', '*'] ++ cs ++ ['*', '/']) :=
  silent_of_markFrom fun behind => by rw [h, markFrom]

end

/-! ## Written documentation comments -/

section

variable {indent line : String} {lines : List String}

/-- The lines of a documentation comment, none of which ends it. -/
def IsJavadoc (lines : List String) : Prop :=
  ∀ line ∈ lines, ¬ ['*', '/'] <:+: line.toList

theorem not_mem_of_blank {cs : List Char} {d : Char} (h : ∀ c ∈ cs, Text.isBlank c = true)
    (hd : Text.isBlank d = false) : d ∉ cs :=
  fun hmem => absurd (h d hmem) (by simp [hd])

theorem enclosed_javadocLine (hindent : ∀ c ∈ indent.toList, Text.isBlank c = true)
    (hline : ¬ ['*', '/'] <:+: line.toList) : Enclosed (javadocLine indent line).toList := by
  have hslash : '/' ∉ indent.toList := not_mem_of_blank hindent (by decide)
  rw [javadocLine]
  split
  · have htext : (indent ++ " *\n").toList = (indent.toList ++ [' ', '*']) ++ ['\n'] := by
      simp [String.toList_append]
    rw [htext]
    exact enclosed_concat (not_infix_of_not_mem (by simp [hslash])) (by decide) (by decide)
  · have htext : (indent ++ " * " ++ line ++ "\n").toList
        = ((indent.toList ++ [' ', '*']) ++ [' ']) ++ (line.toList ++ ['\n']) := by
      simp [String.toList_append]
    rw [htext]
    refine (enclosed_concat (not_infix_of_not_mem ?_) (by decide) (by decide)).append
      (enclosed_concat hline (by decide) (by decide))
    simp [hslash]

theorem enclosed_join (hindent : ∀ c ∈ indent.toList, Text.isBlank c = true) (h : IsJavadoc lines) :
    Enclosed (String.join (lines.map (javadocLine indent))).toList := by
  induction lines with
  | nil => exact fun _ => rfl
  | cons line lines ih =>
    rw [List.map_cons, String.join_cons, String.toList_append]
    exact (enclosed_javadocLine hindent (h line List.mem_cons_self)).append
      (ih fun other hother => h other (List.mem_cons_of_mem line hother))

/-- **A written documentation comment is silent**, if no line of it ends the
comment. -/
theorem silent_javadoc (hindent : ∀ c ∈ indent.toList, Text.isBlank c = true)
    (h : IsJavadoc lines) :
    Silent (renderJavadoc indent lines).toList := by
  rw [renderJavadoc]
  split
  · exact ⟨settled_nil, by simp [markFrom]⟩
  · have hslash : '/' ∉ indent.toList := not_mem_of_blank hindent (by decide)
    have hopening : Enclosed (['*'] ++ ['\n']) :=
      enclosed_concat (not_infix_of_not_mem (by decide)) (by decide) (by decide)
    have hclosing : Enclosed (indent.toList ++ [' ']) :=
      enclosed_concat (not_infix_of_not_mem hslash) (by decide) (by decide)
    have htext : (indent ++ "/**\n" ++ String.join (lines.map (javadocLine indent)) ++ indent
          ++ " */\n").toList
        = indent.toList ++ ((['/', '*'] ++ (['*', '\n'] ++
            (String.join (lines.map (javadocLine indent))).toList ++ (indent.toList ++ [' '])) ++
            ['*', '/']) ++ ['\n']) := by
      simp [String.toList_append]
    rw [htext]
    exact (silent_of_blank hindent).append ((silent_comment ((hopening.append
      (enclosed_join hindent h)).append hclosing)).append (silent_of_blank (by decide)))

/-- Every line of a documentation comment is found in it as it is. -/
theorem infix_javadoc (h : line ∈ lines) :
    line.toList <:+: (renderJavadoc indent lines).toList := by
  have hlines : line.toList <:+: (String.join (lines.map (javadocLine indent))).toList := by
    induction lines with
    | nil => exact absurd h List.not_mem_nil
    | cons first lines ih =>
      rw [List.map_cons, String.join_cons, String.toList_append]
      rcases List.mem_cons.1 h with rfl | h
      · refine List.IsInfix.trans ?_ (List.prefix_append _ _).isInfix
        rw [javadocLine]
        split
        next hempty =>
          rw [String.isEmpty_iff.1 hempty]
          exact List.nil_infix
        · rw [String.toList_append, String.toList_append]
          exact ⟨_, _, rfl⟩
      · exact (ih h).trans (List.suffix_append _ _).isInfix
  have hne : lines.isEmpty = false := by
    cases lines with
    | nil => exact absurd h List.not_mem_nil
    | cons => rfl
  rw [renderJavadoc, hne]
  refine hlines.trans ?_
  simp only [String.toList_append, List.append_assoc, Bool.false_eq_true, if_false]
  exact ⟨indent.toList ++ "/**\n".toList, indent.toList ++ " */\n".toList, by simp⟩

end

end TableMapper.Source
