import TableMapper.Proofs.Text.Occurrences
import TableMapper.Proofs.Unit.Comment

/-!
# Documentation comments in their files

That a documentation comment is blank as code is not all one wants to know of
it: ``*/ /*`` inside leaves no code behind either, and yet there are two
comments where one was written. What is wanted is that a comment begins in
the code and **ends with its own last characters and not before**
(`IsWholeComment`). A file is taken apart into its documentation comments and
the code between them (`JavaUnit.pieces`), so that every comment can be looked
at in its place. **If the code begins neither comments nor literals, all
comments of a file are whole exactly if no line of their documentation ends a
comment** (`JavaUnit.sealsComments_iff`).
-/

namespace TableMapper

namespace Source

/-- The block comment that a text begins with, up to the first place where it
ends, and what follows it. -/
def blockComment? : List Char → Option (List Char × List Char)
  | '/' :: '*' :: rest =>
    (Text.splitOnce ['*', '/'] rest).map fun (inner, behind) =>
      ('/' :: '*' :: (inner ++ ['*', '/']), behind)
  | _ => none

/-- **A comment in its file**, between what stands in front of it and what
follows it. -/
structure IsWholeComment (front comment behind : List Char) : Prop where
  /-- It begins in the code. -/
  begins : Settled front
  /-- Nothing of it is left as code, and what follows it is code. -/
  silent : Silent comment
  /-- It is one comment, which ends with its own last characters. -/
  ends : blockComment? (comment ++ behind) = some (comment, behind)

/-- A text that begins neither comments nor literals. -/
def IsInertText (cs : List Char) : Prop :=
  ∀ c ∈ cs, isInert c = true

instance (cs : List Char) : Decidable (IsInertText cs) :=
  inferInstanceAs (Decidable (∀ c ∈ cs, isInert c = true))

section

variable {cs ds inner comment behind : List Char} {c : Char}

theorem isInertText_nil : IsInertText [] :=
  List.forall_mem_nil _

theorem isInertText_append : IsInertText (cs ++ ds) ↔ IsInertText cs ∧ IsInertText ds :=
  List.forall_mem_append

/-! ## The end of a comment -/

/-- What stands in front of the first end of a comment has none. -/
theorem not_infix_of_splitOnce (h : Text.splitOnce ['*', '/'] cs = some (inner, behind)) :
    cs = inner ++ '*' :: '/' :: behind ∧ ¬ ['*', '/'] <:+: inner ++ ['*'] := by
  induction cs generalizing inner with
  | nil => cases h
  | cons c cs ih =>
    rw [Text.splitOnce] at h
    split at h
    next hend =>
      obtain ⟨rest, hrest⟩ := List.isPrefixOf_iff_prefix.1 hend
      rw [← hrest] at h ⊢
      obtain ⟨rfl, rfl⟩ := Prod.mk.inj (Option.some.inj h)
      exact ⟨rfl, by decide⟩
    next hnone =>
      obtain ⟨⟨front, rest⟩, hsplit, heq⟩ := Option.map_eq_some_iff.1 h
      obtain ⟨rfl, rfl⟩ := Prod.mk.inj heq
      obtain ⟨rfl, hfront⟩ := ih hsplit
      refine ⟨rfl, fun hpart => ?_⟩
      rw [List.cons_append, List.infix_cons_iff] at hpart
      rcases hpart with hprefix | hpart
      · -- then the comment would have ended here
        refine hnone (List.isPrefixOf_iff_prefix.2 ?_)
        have hbegins : front ++ ['*'] <+: front ++ '*' :: '/' :: rest := ⟨'/' :: rest, by simp⟩
        exact hprefix.trans (List.cons_prefix_cons.2 ⟨rfl, hbegins⟩)
      · exact hfront hpart

/-- The first end of a comment is where it is looked for. -/
theorem splitOnce_of_not_isInfix (h : ¬ ['*', '/'] <:+: inner ++ ['*']) (behind : List Char) :
    Text.splitOnce ['*', '/'] (inner ++ '*' :: '/' :: behind) = some (inner, behind) := by
  induction inner with
  | nil => rfl
  | cons c inner ih =>
    have hinner : ¬ ['*', '/'] <:+: inner ++ ['*'] :=
      fun hpart => h (hpart.trans (List.suffix_cons c _).isInfix)
    have hnone : List.isPrefixOf ['*', '/'] (c :: (inner ++ '*' :: '/' :: behind)) = false := by
      refine Bool.eq_false_iff.2 fun hprefix => h ?_
      obtain ⟨rfl, hslash⟩ := List.cons_prefix_cons.1 (List.isPrefixOf_iff_prefix.1 hprefix)
      cases inner with
      | nil => exact absurd (List.cons_prefix_cons.1 hslash).1 (by decide)
      | cons d inner =>
        obtain ⟨rfl, -⟩ := List.cons_prefix_cons.1 hslash
        exact (List.prefix_append ['*', '/'] (inner ++ ['*'])).isInfix
    rw [List.cons_append, Text.splitOnce, hnone, ih hinner]
    rfl

/-- **Where marking takes a comment to end** is its first end: the marking
goes on behind it as it does at the beginning of a file. -/
theorem markFrom_blockComment (h : ¬ ['*', '/'] <:+: inner ++ ['*']) (behind : List Char) :
    markFrom .blockComment (inner ++ '*' :: '/' :: behind)
      = inner.map inside ++ concealed '*' :: concealed '/' :: markFrom .code behind := by
  induction inner with
  | nil => rfl
  | cons c inner ih =>
    have hinner : ¬ ['*', '/'] <:+: inner ++ ['*'] :=
      fun hpart => h (hpart.trans (List.suffix_cons c _).isInfix)
    rw [List.cons_append, markFrom, ih hinner]
    · rfl
    · rintro rest rfl hrest
      cases inner with
      | nil => exact absurd (List.cons.inj hrest).1 (by decide)
      | cons d inner =>
        obtain ⟨rfl, -⟩ := List.cons.inj hrest
        exact h (List.prefix_append ['*', '/'] (inner ++ ['*'])).isInfix

/-- **A comment is blank as code**, whatever it contains. -/
theorem silent_of_blockComment (h : blockComment? (comment ++ behind) = some (comment, behind)) :
    Silent comment := by
  unfold blockComment? at h
  split at h
  next rest hrest =>
    obtain ⟨⟨inner, after⟩, hsplit, heq⟩ := Option.map_eq_some_iff.1 h
    obtain ⟨rfl, rfl⟩ := Prod.mk.inj heq
    obtain ⟨-, hinner⟩ := not_infix_of_splitOnce hsplit
    exact silent_of_markFrom (markFrom_blockComment hinner)
  · cases h

end

/-! ## Written documentation -/

/-- A written documentation comment from its first to its last character. -/
def writtenComment (indent : String) (lines : List String) : List Char :=
  "/**\n".toList ++ (String.join (lines.map (javadocLine indent))).toList ++
    indent.toList ++ " */".toList

section

variable {indent line : String} {lines : List String}

/-- A written line ends a comment exactly if its text does. -/
theorem infix_javadocLine (hindent : ∀ c ∈ indent.toList, Text.isBlank c = true) :
    ['*', '/'] <:+: (javadocLine indent line).toList ↔ ['*', '/'] <:+: line.toList := by
  have hslash : '/' ∉ indent.toList := not_mem_of_blank hindent (by decide)
  rw [javadocLine]
  split
  next hempty =>
    rw [String.isEmpty_iff.1 hempty]
    exact iff_of_false (not_infix_of_not_mem (by simp [hslash])) (by decide)
  · have htext : (indent ++ " * " ++ line ++ "\n").toList
        = (indent.toList ++ [' ', '*']) ++ ' ' :: (line.toList ++ ['\n']) := by
      simp
    have hfront : ¬ ['*', '/'] <:+: indent.toList ++ [' ', '*'] :=
      not_infix_of_not_mem (by simp [hslash])
    have hlast : ['*', '/'] <:+: line.toList ++ ['\n'] ↔ ['*', '/'] <:+: line.toList :=
      Text.infix_append_blanks (by decide) (by decide)
    rw [htext, Text.infix_append_cons (by decide), hlast]
    exact or_iff_right hfront

/-- Written lines end a comment exactly if one of them does. -/
theorem infix_join_javadocLines (hindent : ∀ c ∈ indent.toList, Text.isBlank c = true) :
    ['*', '/'] <:+: (String.join (lines.map (javadocLine indent))).toList ↔ ¬ IsJavadoc lines := by
  induction lines with
  | nil =>
    have hnone : ¬ ['*', '/'] <:+: ([] : List Char) := by decide
    exact iff_of_false hnone (not_not_intro (List.forall_mem_nil _))
  | cons line lines ih =>
    obtain ⟨front, hfront⟩ : ∃ front, (javadocLine indent line).toList = front ++ ['\n'] := by
      rw [javadocLine]
      split
      · exact ⟨(indent ++ " *").toList, by simp [String.toList_append]⟩
      · exact ⟨(indent ++ " * " ++ line).toList, by simp [String.toList_append]⟩
    have hline : ['*', '/'] <:+: front ↔ ['*', '/'] <:+: line.toList := by
      rw [← infix_javadocLine hindent, hfront, Text.infix_append_blanks (by decide) (by decide)]
    have hcons : IsJavadoc (line :: lines) ↔ ¬ ['*', '/'] <:+: line.toList ∧ IsJavadoc lines :=
      List.forall_mem_cons
    rw [List.map_cons, String.join_cons, String.toList_append, hfront, List.append_assoc,
      List.singleton_append, Text.infix_append_cons (by decide), hline, ih,
      hcons, not_and_or, not_not]

/-- **A written comment ends with its own last characters exactly if no line
ends it before.** -/
theorem blockComment_writtenComment (hindent : ∀ c ∈ indent.toList, Text.isBlank c = true)
    (behind : List Char) :
    blockComment? (writtenComment indent lines ++ behind)
      = some (writtenComment indent lines, behind) ↔
      IsJavadoc lines := by
  have hslash : '/' ∉ indent.toList := not_mem_of_blank hindent (by decide)
  let inner := '*' :: '\n' ::
    ((String.join (lines.map (javadocLine indent))).toList ++ (indent.toList ++ [' ']))
  have hown : writtenComment indent lines = '/' :: '*' :: (inner ++ ['*', '/']) := by
    simp [writtenComment, inner]
  have hcut : writtenComment indent lines ++ behind
      = '/' :: '*' :: (inner ++ '*' :: '/' :: behind) := by
    rw [hown]
    simp
  -- neither the first line nor the last one ends a comment
  have hinner : ['*', '/'] <:+: inner ++ ['*'] ↔ ¬ IsJavadoc lines := by
    have htext : inner ++ ['*']
        = ['*'] ++ '\n' :: (((String.join (lines.map (javadocLine indent))).toList ++
        indent.toList) ++ ' ' :: ['*']) := by
      simp [inner]
    have hstar : ¬ ['*', '/'] <:+: ['*'] := by decide
    rw [← infix_join_javadocLines hindent, htext, Text.infix_append_cons (by decide),
      Text.infix_append_cons (by decide), Text.infix_append_blanks (by decide) hindent,
      or_iff_right hstar, or_iff_left hstar]
  rw [hcut, blockComment?]
  constructor
  · intro h
    obtain ⟨⟨found, rest⟩, hsplit, heq⟩ := Option.map_eq_some_iff.1 h
    obtain ⟨hfound, rfl⟩ := Prod.mk.inj heq
    rw [hown] at hfound
    obtain rfl : found = inner :=
      List.append_cancel_right (List.cons.inj (List.cons.inj hfound).2).2
    by_contra hjavadoc
    exact (not_infix_of_splitOnce hsplit).2 (hinner.2 hjavadoc)
  · intro h
    rw [splitOnce_of_not_isInfix fun hpart => hinner.1 hpart h, hown]
    rfl

end

/-! ## Files in pieces -/

/-- A piece of a written file. -/
inductive Piece
  /-- A documentation comment; nothing for no lines. -/
  | comment (indent : String) (lines : List String)
  /-- Anything between two comments. -/
  | code (text : String)

/-- The text of a piece. -/
def Piece.chars : Piece → List Char
  | .comment indent lines => (renderJavadoc indent lines).toList
  | .code text => text.toList

/-- The text of several pieces. -/
def charsOf (pieces : List Piece) : List Char :=
  pieces.flatMap Piece.chars

/-- **Every comment of a file is whole in its place.** -/
def Sealed (pieces : List Piece) : Prop :=
  ∀ front indent lines behind, pieces = front ++ .comment indent lines :: behind → lines ≠ [] →
    IsWholeComment (charsOf front ++ indent.toList) (writtenComment indent lines)
      ('\n' :: charsOf behind)

section

variable {pieces more : List Piece}

theorem charsOf_append : charsOf (pieces ++ more) = charsOf pieces ++ charsOf more :=
  List.flatMap_append

theorem charsOf_intercalate (separator : List Piece) (parts : List (List Piece)) :
    charsOf (separator.intercalate parts)
      = (charsOf separator).intercalate (parts.map charsOf) := by
  induction parts with
  | nil => rfl
  | cons part parts ih =>
    cases parts with
    | nil => rw [List.intercalate_singleton, List.map_singleton, List.intercalate_singleton]
    | cons second parts =>
      rw [List.map_cons] at ih
      rw [List.map_cons, List.map_cons, List.intercalate_cons_cons, List.intercalate_cons_cons,
        charsOf_append, charsOf_append, ih]

/-- What inert code and comments that end nowhere else consist of is
settled. -/
theorem settled_charsOf (hcode : ∀ text, .code text ∈ pieces → IsInertText text.toList)
    (hindent : ∀ indent lines, .comment indent lines ∈ pieces → ∀ c ∈ indent.toList,
      Text.isBlank c = true)
    (hlines : ∀ indent lines, .comment indent lines ∈ pieces → IsJavadoc lines) :
    Settled (charsOf pieces) := by
  induction pieces with
  | nil => exact settled_nil
  | cons piece pieces ih =>
    have hrest : Settled (charsOf pieces) :=
      ih (fun text h => hcode text (List.mem_cons_of_mem _ h))
      (fun indent lines h => hindent indent lines (List.mem_cons_of_mem _ h))
      (fun indent lines h => hlines indent lines (List.mem_cons_of_mem _ h))
    refine Settled.append ?_ hrest
    cases piece with
    | comment indent lines =>
      exact (silent_javadoc (hindent indent lines List.mem_cons_self)
        (hlines indent lines List.mem_cons_self)).settled
    | code text => exact settled_of_inert (hcode text List.mem_cons_self)

/-- **The comments of a file with inert code are whole exactly if no line of
them ends a comment.** -/
theorem sealed_iff (hcode : ∀ text, .code text ∈ pieces → IsInertText text.toList)
    (hindent : ∀ indent lines, .comment indent lines ∈ pieces → ∀ c ∈ indent.toList,
      Text.isBlank c = true) :
    Sealed pieces ↔ ∀ indent lines, .comment indent lines ∈ pieces → IsJavadoc lines := by
  constructor
  · intro h indent lines hmem
    obtain ⟨front, behind, hpieces⟩ := List.append_of_mem hmem
    by_cases hlines : lines = []
    · rw [hlines]
      exact List.forall_mem_nil _
    · exact (blockComment_writtenComment (hindent indent lines hmem) _).1
        (h front indent lines behind hpieces hlines).ends
  · intro h front indent lines behind hpieces _
    have hfront : front ⊆ pieces := hpieces ▸ List.subset_append_left _ _
    have hmem : Piece.comment indent lines ∈ pieces :=
      hpieces ▸ List.mem_append_right _ List.mem_cons_self
    have hends : blockComment? (writtenComment indent lines ++ '\n' :: charsOf behind)
        = some (writtenComment indent lines, '\n' :: charsOf behind) :=
      (blockComment_writtenComment (hindent indent lines hmem) _).2 (h indent lines hmem)
    refine ⟨?_, silent_of_blockComment hends, hends⟩
    exact (settled_charsOf (fun text htext => hcode text (hfront htext))
      (fun other others hother => hindent other others (hfront hother))
      (fun other others hother => h other others (hfront hother))).append
        (silent_of_blank (hindent indent lines hmem)).settled

end

end Source

/-! ## Written units in pieces -/

namespace JavaUnit

open Source

/-- The pieces of each member of a unit, in order. -/
def memberPieces (u : JavaUnit) : List (List Piece) :=
  (u.fields.map fun f =>
    [.comment memberIndent f.javadoc, .code { f with javadoc := [] }.render]) ++
  (u.methods.map fun m =>
    [.comment memberIndent m.javadoc, .code ({ m with javadoc := [] }.render u.type)]) ++
  u.retained.map fun text => [.code (memberIndent ++ text ++ "\n")]

/-- **The pieces of a written unit**: its documentation comments, and the
code between them. -/
def pieces (u : JavaUnit) : List Piece :=
  [.code u.renderPrelude, .comment "" u.javadoc,
    .code (renderAnnotations "" u.annotations ++ u.renderHeader)] ++
    ([.code "\n"].intercalate u.memberPieces ++ [.code "\x7d\n"])

/-- **Every documentation comment of the written unit is whole**: nothing of
it is left as code, and it ends where it was written to end. -/
def SealsComments (u : JavaUnit) : Prop :=
  Sealed u.pieces

variable {u : JavaUnit}

theorem charsOf_memberPieces (u : JavaUnit) :
    u.memberPieces.map charsOf = u.memberTexts.map String.toList := by
  have hfield : ∀ f : Field,
      charsOf [.comment memberIndent f.javadoc, .code { f with javadoc := [] }.render]
      = f.render.toList := by
    intro f
    simp [charsOf, Piece.chars, Field.render, renderJavadoc]
  have hmethod : ∀ m : Method,
      charsOf [.comment memberIndent m.javadoc, .code ({ m with javadoc := [] }.render u.type)]
      = (m.render u.type).toList := by
    intro m
    simp [charsOf, Piece.chars, Method.render, renderJavadoc]
  have hretained : ∀ text : String, charsOf [.code (memberIndent ++ text ++ "\n")]
      = (memberIndent ++ text ++ "\n").toList := fun text => List.append_nil _
  rw [memberPieces, memberTexts]
  simp only [List.map_append, List.map_map, Function.comp_def, hfield, hmethod, hretained]

/-- **The pieces of a unit are its text.** -/
theorem charsOf_pieces (u : JavaUnit) : charsOf u.pieces = u.render.toList := by
  rw [pieces, charsOf_append, charsOf_append, charsOf_intercalate, charsOf_memberPieces, render]
  simp [charsOf, Piece.chars, String.toList_intercalate]

/-- What is written of a member stands in the file. -/
theorem infix_render {text : String} (h : text ∈ u.memberTexts) :
    text.toList <:+: u.render.toList := by
  have hmembers : text.toList <:+: ("\n".intercalate u.memberTexts).toList := by
    rw [String.toList_intercalate]
    exact Text.infix_intercalate (List.mem_map_of_mem h)
  unfold render
  rw [String.toList_append, String.toList_append]
  exact (hmembers.trans (List.suffix_append _ _).isInfix).trans (List.prefix_append _ _).isInfix

/-- What stands in joined parts stands in one of them, or between two. -/
theorem mem_intercalate {α : Type} {separator : List α} {parts : List (List α)} {a : α} :
    a ∈ separator.intercalate parts ↔ (∃ part ∈ parts, a ∈ part) ∨ a ∈ separator ∧
    1 < parts.length := by
  induction parts with
  | nil => simp
  | cons part parts ih =>
    cases parts with
    | nil => simp
    | cons second parts =>
      have hlong : 1 < (part :: second :: parts).length := by simp
      have hcons : (∃ x ∈ part :: second :: parts, a ∈ x) ↔ a ∈ part ∨
          ∃ x ∈ second :: parts, a ∈ x := by simp
      rw [List.intercalate_cons_cons, List.mem_append, List.mem_append, ih, hcons]
      constructor
      · rintro ((h | h) | h | ⟨h, -⟩)
        · exact .inl (.inl h)
        · exact .inr ⟨h, hlong⟩
        · exact .inl (.inr h)
        · exact .inr ⟨h, hlong⟩
      · rintro ((h | h) | ⟨h, -⟩)
        · exact .inl (.inl h)
        · exact .inr (.inl h)
        · exact .inl (.inr h)

/-- **The comments of a unit** are those of the type and of its members. -/
theorem comment_mem_pieces {indent : String} {lines : List String} :
    .comment indent lines ∈ u.pieces ↔
    indent = "" ∧ lines = u.javadoc ∨ indent = memberIndent ∧
      ((∃ f ∈ u.fields, lines = f.javadoc) ∨ ∃ m ∈ u.methods, lines = m.javadoc) := by
  simp only [pieces, memberPieces, List.mem_append, mem_intercalate, List.mem_map, List.mem_cons,
    List.not_mem_nil, or_false, Piece.comment.injEq, reduceCtorEq, false_or, false_and]
  refine or_congr_right ⟨?_, ?_⟩
  · rintro ⟨part, (⟨f, hf, rfl⟩ | ⟨m, hm, rfl⟩) | ⟨text, -, rfl⟩, hpart⟩
    · obtain ⟨rfl, rfl⟩ : indent = memberIndent ∧ lines = f.javadoc := by simpa using hpart
      exact ⟨rfl, .inl ⟨f, hf, rfl⟩⟩
    · obtain ⟨rfl, rfl⟩ : indent = memberIndent ∧ lines = m.javadoc := by simpa using hpart
      exact ⟨rfl, .inr ⟨m, hm, rfl⟩⟩
    · simp at hpart
  · rintro ⟨rfl, ⟨f, hf, rfl⟩ | ⟨m, hm, rfl⟩⟩
    · exact ⟨_, .inl (.inl ⟨f, hf, rfl⟩), List.mem_cons_self⟩
    · exact ⟨_, .inl (.inr ⟨m, hm, rfl⟩), List.mem_cons_self⟩

/-- **The comments of a unit with inert code are whole exactly if no line of
its documentation ends a comment.** -/
theorem sealsComments_iff (hcode : ∀ text, .code text ∈ u.pieces → IsInertText text.toList) :
    u.SealsComments ↔ IsJavadoc u.javadoc ∧ (∀ f ∈ u.fields, IsJavadoc f.javadoc) ∧
      ∀ m ∈ u.methods, IsJavadoc m.javadoc := by
  rw [SealsComments, sealed_iff hcode]
  · constructor
    · intro h
      exact ⟨h _ _ (comment_mem_pieces.2 (.inl ⟨rfl, rfl⟩)),
        fun f hf => h _ _ (comment_mem_pieces.2 (.inr ⟨rfl, .inl ⟨f, hf, rfl⟩⟩)),
        fun m hm => h _ _ (comment_mem_pieces.2 (.inr ⟨rfl, .inr ⟨m, hm, rfl⟩⟩))⟩
    · rintro ⟨htype, hfields, hmethods⟩ indent lines hmem
      rcases comment_mem_pieces.1 hmem with ⟨-, rfl⟩ | ⟨-, ⟨f, hf, rfl⟩ | ⟨m, hm, rfl⟩⟩
      · exact htype
      · exact hfields f hf
      · exact hmethods m hm
  · intro indent lines hmem
    rcases comment_mem_pieces.1 hmem with ⟨rfl, -⟩ | ⟨rfl, -⟩
    · exact List.forall_mem_nil _
    · decide

end JavaUnit

end TableMapper
