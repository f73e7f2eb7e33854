import TableMapper.Proofs.Merge.OtherTypes
import TableMapper.Proofs.Unit.SealedComments

/-!
# The documentation of a member, and other comments in front of it

What stands in front of the declaration of a member are comments and
annotations (`frontItems`). Its own documentation is the last block comment
with nothing but annotations behind it (`ownJavadoc?`). A merge does not look
for it: it takes for generated whatever has the retention tag in any comment
in front of its code, annotations being code (`tagged_iff`). So **the members
without the tag in their own documentation are all kept exactly if no other
comment in front of one of them bears it** (`JavaUnit.keepsUntagged_iff`). What
is left behind by a member that was deleted takes the next one with it.
-/

namespace TableMapper

namespace Source

/-! ## What stands in front of a declaration -/

/-- What can stand in front of a declaration. -/
inductive FrontKind
  | blockComment
  | lineComment
  | mark
deriving Repr, DecidableEq

/-- A comment with its delimiters, or an annotation with its arguments. -/
structure FrontItem where
  kind : FrontKind
  text : List Char
deriving Repr, DecidableEq

def FrontItem.isComment (item : FrontItem) : Bool :=
  item.kind != .mark

/-- The line comment that a text begins with, the end of its line included,
and what follows it. -/
def lineComment? : List Char → Option (List Char × List Char)
  | '/' :: '/' :: rest =>
    match rest.dropWhile (· != '\n') with
    | [] => none
    | newline :: behind => some ('/' :: '/' :: (rest.takeWhile (· != '\n') ++ [newline]), behind)
  | _ => none

/-- The number of characters up to the parenthesis that closes the first one,
if a text begins with one. What stands in comments and literals does not
count. -/
def argumentsLength (cs : List Char) : Nat :=
  let opened := Text.trimStart (codes (markFrom .code cs))
  match opened with
  | '(' :: _ => cs.length - (Text.dropBalanced '(' ')' 0 opened).length
  | _ => 0

/-- The annotation that a text begins with, and what follows it. -/
def annotation? : List Char → Option (List Char × List Char)
  | '@' :: rest =>
    if "interface".toList.isPrefixOf rest then none
    else
      let behind := rest.dropWhile MemberKey.isMarkChar
      some ('@' :: (rest.takeWhile MemberKey.isMarkChar ++ behind.take (argumentsLength behind)),
        behind.drop (argumentsLength behind))
  | _ => none

/-- The comment or annotation that a text begins with, and what follows
it. -/
def frontItem? (cs : List Char) : Option (FrontItem × List Char) :=
  match blockComment? cs, lineComment? cs, annotation? cs with
  | some (text, behind), _, _ => some (⟨.blockComment, text⟩, behind)
  | none, some (text, behind), _ => some (⟨.lineComment, text⟩, behind)
  | none, none, some (text, behind) => some (⟨.mark, text⟩, behind)
  | none, none, none => none

/-- A comment that ends where it should: it is blank as code, and what ends it
is no part of a tag. -/
structure IsClosedComment (text : List Char) : Prop where
  silent : Silent text
  ended : ∃ front last, text = front ++ [last] ∧ (last = '/' ∨ last = '\n')

section

variable {cs text behind : List Char} {item : FrontItem}

theorem isClosedComment_of_blockComment? (h : blockComment? cs = some (text, behind)) :
    cs = text ++ behind ∧ IsClosedComment text := by
  have hcut : cs = text ++ behind ∧ ∃ front, text = front ++ ['/'] := by
    unfold blockComment? at h
    split at h
    next rest =>
      obtain ⟨⟨inner, after⟩, hsplit, heq⟩ := Option.map_eq_some_iff.1 h
      obtain ⟨rfl, rfl⟩ := Prod.mk.inj heq
      obtain ⟨rfl, -⟩ := not_infix_of_splitOnce hsplit
      exact ⟨by simp, '/' :: '*' :: (inner ++ ['*']), by simp⟩
    · exact absurd h (by simp)
  obtain ⟨rfl, front, hfront⟩ := hcut
  exact ⟨rfl, silent_of_blockComment h, front, '/', hfront, .inl rfl⟩

theorem markFrom_lineComment (h : '\n' ∉ cs) (behind : List Char) :
    markFrom .lineComment (cs ++ '\n' :: behind)
      = cs.map inside ++ inside '\n' :: markFrom .code behind := by
  induction cs with
  | nil => rfl
  | cons c cs ih =>
    have hc : (c == '\n') = false := beq_eq_false_iff_ne.2 fun heq => h (heq ▸ List.mem_cons_self)
    rw [List.cons_append, markFrom, hc, if_neg Bool.false_ne_true,
      ih fun hmem => h (List.mem_cons_of_mem c hmem)]
    rfl

/-- A line comment is silent together with the end of its line. -/
theorem silent_lineComment (h : '\n' ∉ cs) : Silent ('/' :: '/' :: (cs ++ ['\n'])) := by
  refine @silent_of_marks _ ([concealed '/', concealed '/'] ++ cs.map inside ++ [inside '\n']) ?_ ?_
  · intro behind
    show concealed '/' :: concealed '/' :: markFrom .lineComment (cs ++ ['\n'] ++ behind) = _
    rw [List.append_assoc, List.singleton_append, markFrom_lineComment h]
    simp
  · rw [List.forall_mem_append, List.forall_mem_append]
    exact ⟨⟨by decide, isBlank_map_inside cs⟩, List.forall_mem_singleton.2 (isBlank_inside '\n')⟩

theorem isClosedComment_of_lineComment? (h : lineComment? cs = some (text, behind)) :
    cs = text ++ behind ∧ IsClosedComment text := by
  unfold lineComment? at h
  split at h
  next rest =>
    split at h
    · exact absurd h (by simp)
    next newline after hdrop =>
      obtain ⟨rfl, rfl⟩ := Prod.mk.inj (Option.some.inj h)
      have hcut := List.takeWhile_append_dropWhile (p := (· != '\n')) (l := rest)
      have hnone : '\n' ∉ rest.takeWhile (· != '\n') :=
        fun hmem => by simpa using List.mem_takeWhile_imp hmem
      obtain rfl : newline = '\n' := by
        have hhead := List.head?_dropWhile_not (· != '\n') rest
        rw [hdrop] at hhead
        simpa using hhead
      rw [hdrop] at hcut
      refine ⟨by simp [hcut], silent_lineComment hnone, '/' :: '/' :: rest.takeWhile (· != '\n'),
        '\n', rfl, .inr rfl⟩
  · exact absurd h (by simp)

theorem exists_of_annotation? (h : annotation? cs = some (text, behind)) :
    cs = text ++ behind ∧ ∃ rest, cs = '@' :: rest ∧ text ≠ [] := by
  unfold annotation? at h
  split at h
  next rest =>
    split at h
    · exact absurd h (by simp)
    · obtain ⟨rfl, rfl⟩ := Prod.mk.inj (Option.some.inj h)
      refine ⟨?_, rest, rfl, by simp⟩
      rw [List.cons_append, List.append_assoc, List.take_append_drop,
        List.takeWhile_append_dropWhile]
  · exact absurd h (by simp)

/-- **What an item is**: a front part of the text, and a comment that ends
where it should, unless the text begins with an annotation. -/
theorem frontItem?_cases (h : frontItem? cs = some (item, behind)) :
    cs = item.text ++ behind ∧ item.text ≠ [] ∧
    (item.isComment = true ∧ IsClosedComment item.text ∨ item.isComment = false ∧ ∃ rest,
      cs = '@' :: rest) := by
  have hne : IsClosedComment item.text → item.text ≠ [] := by
    rintro ⟨-, front, last, hended, -⟩
    simp [hended]
  unfold frontItem? at h
  split at h
  next hblock =>
    obtain ⟨rfl, rfl⟩ := Prod.mk.inj (Option.some.inj h)
    obtain ⟨hcut, hclosed⟩ := isClosedComment_of_blockComment? hblock
    exact ⟨hcut, hne hclosed, .inl ⟨rfl, hclosed⟩⟩
  next hline =>
    obtain ⟨rfl, rfl⟩ := Prod.mk.inj (Option.some.inj h)
    obtain ⟨hcut, hclosed⟩ := isClosedComment_of_lineComment? hline
    exact ⟨hcut, hne hclosed, .inl ⟨rfl, hclosed⟩⟩
  next hmark =>
    obtain ⟨rfl, rfl⟩ := Prod.mk.inj (Option.some.inj h)
    obtain ⟨hcut, rest, hrest, hne⟩ := exists_of_annotation? hmark
    exact ⟨hcut, hne, .inr ⟨rfl, rest, hrest⟩⟩
  · exact absurd h (by simp)

theorem frontItem?_length (h : frontItem? (Text.trimStart cs) = some (item, behind)) :
    behind.length < cs.length := by
  obtain ⟨hcut, hne, -⟩ := frontItem?_cases h
  have hle : (Text.trimStart cs).length ≤ cs.length :=
    (List.dropWhile_suffix Text.isBlank).length_le
  have hpos := List.length_pos_of_ne_nil hne
  rw [hcut, List.length_append] at hle
  omega

end

/-- **The comments and annotations in front of a declaration**, in order. -/
def frontItems (cs : List Char) : List FrontItem :=
  match _h : frontItem? (Text.trimStart cs) with
  | none => []
  | some (item, behind) => item :: frontItems behind
termination_by cs.length
decreasing_by exact frontItem?_length _h

/-- The comments in front of the code of a member, of which its annotations
are part. -/
def commentsInFront (cs : List Char) : List FrontItem :=
  (frontItems cs).takeWhile (·.isComment)

/-- **The documentation of a member**: the last block comment, if only
annotations stand between it and the declaration. -/
def ownJavadoc? (cs : List Char) : Option (List Char) :=
  match (frontItems cs).reverse.dropWhile (!·.isComment) with
  | ⟨.blockComment, text⟩ :: _ => some text
  | _ => none

/-- The text bears the retention tag. -/
def BearsTag (cs : List Char) : Prop :=
  Settings.retentionTag.toList <:+: cs

instance (cs : List Char) : Decidable (BearsTag cs) :=
  decidable_of_iff _ Text.occursIn_iff

/-- What stands in front of the code of a text. -/
def leading (cs : List Char) : List Char :=
  chars ((markFrom .code cs).takeWhile fun c => Text.isBlank c.code)

/-- A text with more than blanks and comments. -/
def HasCode (cs : List Char) : Prop :=
  ∃ c ∈ markFrom .code cs, Text.isBlank c.code = false

section

variable {cs behind blanks : List Char}

/-! ## What a merge looks at -/

theorem markFrom_lineComment_blank (h : '\n' ∉ cs) :
    ∀ c ∈ markFrom .lineComment cs, Text.isBlank c.code = true := by
  induction cs with
  | nil => exact fun c hc => absurd hc List.not_mem_nil
  | cons c cs ih =>
    have hc : (c == '\n') = false := beq_eq_false_iff_ne.2 fun heq => h (heq ▸ List.mem_cons_self)
    rw [markFrom, hc, if_neg Bool.false_ne_true]
    exact List.forall_mem_cons.2 ⟨isBlank_inside c, ih fun hmem => h (List.mem_cons_of_mem c hmem)⟩

theorem markFrom_blockComment_blank (h : ¬ ['*', '/'] <:+: cs) :
    ∀ c ∈ markFrom .blockComment cs, Text.isBlank c.code = true := by
  induction cs with
  | nil => exact fun c hc => absurd hc List.not_mem_nil
  | cons c cs ih =>
    rw [markFrom]
    · exact List.forall_mem_cons.2
        ⟨isBlank_inside c, ih fun hpart => h (hpart.trans (List.suffix_cons c cs).isInfix)⟩
    · rintro rest rfl rfl
      exact h (List.prefix_append ['*', '/'] rest).isInfix

/-- What does not begin a comment is code. -/
theorem exists_markFrom_cons {c : Char} {rest : List Char}
    (hline : ∀ more, c :: rest ≠ '/' :: '/' :: more)
    (hblock : ∀ more, c :: rest ≠ '/' :: '*' :: more) :
    ∃ source, markFrom .code (c :: rest) = shown c :: source := by
  rw [markFrom.eq_def]
  split
  next heq => exact absurd heq (by simp)
  next heq => exact absurd heq (hline _)
  next heq => exact absurd heq (hblock _)
  next heq => exact ⟨_, by rw [(List.cons.inj heq).1]⟩
  next heq => exact ⟨_, by rw [(List.cons.inj heq).1]⟩
  all_goals
    next heq _ => cases heq

/-- A text that begins with a line comment which does not end holds no
code. -/
theorem blank_of_lineComment? {rest : List Char} (h : lineComment? ('/' :: '/' :: rest) = none) :
    ∀ c ∈ markFrom .code ('/' :: '/' :: rest), Text.isBlank c.code = true := by
  have hnone : '\n' ∉ rest := by
    rw [lineComment?] at h
    split at h
    next hdrop =>
      intro hmem
      simpa using List.dropWhile_eq_nil_iff.1 hdrop _ hmem
    · exact absurd h (by simp)
  rw [markFrom]
  exact List.forall_mem_cons.2
    ⟨by decide, List.forall_mem_cons.2 ⟨by decide, markFrom_lineComment_blank hnone⟩⟩

/-- A text that begins with a block comment which does not end holds no
code. -/
theorem blank_of_blockComment? {rest : List Char} (h : blockComment? ('/' :: '*' :: rest) = none) :
    ∀ c ∈ markFrom .code ('/' :: '*' :: rest), Text.isBlank c.code = true := by
  have hnone : ¬ ['*', '/'] <:+: rest := by
    rw [← Text.occursIn_iff, Text.occursIn]
    rw [blockComment?, Option.map_eq_none_iff] at h
    simp [h]
  rw [markFrom]
  exact List.forall_mem_cons.2
    ⟨by decide, List.forall_mem_cons.2 ⟨by decide, markFrom_blockComment_blank hnone⟩⟩

/-- **A text that begins neither with a blank nor with a comment begins with
code**, if there is any code in it. -/
theorem leading_of_start (hstart : ∀ c ∈ cs.head?, Text.isBlank c = false)
    (hblock : blockComment? cs = none)
    (hline : lineComment? cs = none) (hcode : HasCode cs) : leading cs = [] := by
  obtain ⟨visible, hmem, hvisible⟩ := hcode
  cases cs with
  | nil => rfl
  | cons c rest =>
    -- a comment that begins and does not end would leave no code
    have hnoLine : ∀ more, c :: rest ≠ '/' :: '/' :: more := by
      intro more heq
      rw [heq] at hline hmem
      exact absurd (blank_of_lineComment? hline visible hmem) (by simp [hvisible])
    have hnoBlock : ∀ more, c :: rest ≠ '/' :: '*' :: more := by
      intro more heq
      rw [heq] at hblock hmem
      exact absurd (blank_of_blockComment? hblock visible hmem) (by simp [hvisible])
    obtain ⟨source, hsource⟩ := exists_markFrom_cons hnoLine hnoBlock
    rw [leading, hsource,
      List.takeWhile_cons_of_neg (by simp [shown, SourceChar.code, hstart c rfl])]
    rfl

/-- What stands in front of the code goes on behind a text that is blank as
code. -/
theorem leading_append (h : Silent cs) (behind : List Char) :
    leading (cs ++ behind) = cs ++ leading behind := by
  rw [leading, h.settled, List.takeWhile_append_of_pos h.blank, chars_append, chars_markFrom]
  rfl

/-- The code of a text stands behind what is blank as code. -/
theorem HasCode.of_append (hcs : Silent cs) (h : HasCode (cs ++ behind)) : HasCode behind := by
  obtain ⟨c, hc, hvisible⟩ := h
  rw [hcs.settled, List.mem_append] at hc
  exact ⟨c, hc.resolve_left fun hmem => absurd (hcs.blank c hmem) (by simp [hvisible]), hvisible⟩

theorem head?_trimStart (cs : List Char) :
    ∀ c ∈ (Text.trimStart cs).head?, Text.isBlank c = false := by
  intro c hc
  have hhead := List.head?_dropWhile_not Text.isBlank cs
  rw [show cs.dropWhile Text.isBlank = Text.trimStart cs from rfl, Option.mem_def.1 hc] at hhead
  simpa using hhead

theorem frontItem?_eq_none (h : frontItem? cs = none) :
    blockComment? cs = none ∧ lineComment? cs = none := by
  unfold frontItem? at h
  split at h
  · cases h
  · cases h
  · cases h
  next hblock hline _ => exact ⟨hblock, hline⟩

theorem exists_leading_eq (cs : List Char) : ∃ blanks, Text.Blank blanks ∧
    leading cs = blanks ++ leading (Text.trimStart cs) ∧
    (HasCode cs → HasCode (Text.trimStart cs)) := by
  have hblanks : Text.Blank (cs.takeWhile Text.isBlank) := fun c hc => List.mem_takeWhile_imp hc
  have hcut : cs.takeWhile Text.isBlank ++ Text.trimStart cs = cs := List.takeWhile_append_dropWhile
  refine ⟨_, hblanks, ?_, fun hcode => HasCode.of_append (silent_of_blank hblanks) (by rwa [hcut])⟩
  rw [← leading_append (silent_of_blank hblanks), hcut]

theorem bearsTag_blanks_append (h : Text.Blank blanks) : BearsTag (blanks ++ cs) ↔ BearsTag cs := by
  rw [BearsTag, BearsTag, ← Text.occursIn_iff, ← Text.occursIn_iff, occursIn_retentionTag h]

theorem not_bearsTag_nil : ¬ BearsTag [] := by
  decide

/-- The tag does not go on behind a comment. -/
theorem IsClosedComment.bearsTag_append {text : List Char} (h : IsClosedComment text) :
    BearsTag (text ++ cs) ↔ BearsTag text ∨ BearsTag cs := by
  obtain ⟨front, last, rfl, hlast⟩ := h.ended
  have hnot : last ∉ Settings.retentionTag.toList := by
    rcases hlast with rfl | rfl <;> decide
  have hfront : ∀ more, BearsTag (front ++ last :: more) ↔ BearsTag front ∨ BearsTag more :=
    fun more => Text.infix_append_cons hnot
  rw [List.append_assoc, List.singleton_append, hfront, hfront, or_iff_left not_bearsTag_nil]

/-- **The tag stands in front of the code exactly if a comment there bears
it.** -/
theorem bearsTag_leading (hcode : HasCode cs) :
    BearsTag (leading cs) ↔ ∃ item ∈ commentsInFront cs, BearsTag item.text := by
  unfold commentsInFront
  fun_induction frontItems cs with
  | case1 cs hitem =>
    obtain ⟨blanks, hblanks, hleading, hrest⟩ := exists_leading_eq cs
    obtain ⟨hblock, hline⟩ := frontItem?_eq_none hitem
    rw [hleading, bearsTag_blanks_append hblanks,
      leading_of_start (head?_trimStart cs) hblock hline (hrest hcode)]
    exact iff_of_false not_bearsTag_nil (by simp)
  | case2 cs item behind hitem ih =>
    obtain ⟨blanks, hblanks, hleading, hrest⟩ := exists_leading_eq cs
    obtain ⟨hcut, -, ⟨hcomment, hclosed⟩ | ⟨hcomment, rest, hmark⟩⟩ := frontItem?_cases hitem
    · have hbehind : HasCode behind :=
        HasCode.of_append hclosed.silent (by rw [← hcut]; exact hrest hcode)
      rw [hleading, bearsTag_blanks_append hblanks, hcut, leading_append hclosed.silent,
        hclosed.bearsTag_append, ih hbehind, List.takeWhile_cons_of_pos hcomment]
      simp
    · have hnone : leading (Text.trimStart cs) = [] :=
        leading_of_start (head?_trimStart cs) (by rw [hmark]; rfl)
          (by rw [hmark]; rfl) (hrest hcode)
      rw [hleading, bearsTag_blanks_append hblanks, hnone,
        List.takeWhile_cons_of_neg (by simp [hcomment])]
      exact iff_of_false not_bearsTag_nil (by simp)

theorem commentsInFront_blanks_append (h : Text.Blank blanks) (cs : List Char) :
    commentsInFront (blanks ++ cs) = commentsInFront cs := by
  rw [commentsInFront, commentsInFront, frontItems, frontItems, Text.trimStart_blanks_append h]

end

end Source

open Source

/-- The comments in front of the member bear the tag. -/
def Member.BearsTagInFront (m : Member) : Prop :=
  ∃ item ∈ commentsInFront m.text.toList, BearsTag item.text

/-- The documentation of the member bears the tag. -/
def Member.BearsOwnTag (m : Member) : Prop :=
  ∃ javadoc ∈ ownJavadoc? m.text.toList, BearsTag javadoc

instance (m : Member) : Decidable m.BearsTagInFront :=
  inferInstanceAs (Decidable (∃ item ∈ commentsInFront m.text.toList, BearsTag item.text))

instance (m : Member) : Decidable m.BearsOwnTag :=
  inferInstanceAs (Decidable (∃ javadoc ∈ ownJavadoc? m.text.toList, BearsTag javadoc))

/-- **A merge takes a member for generated exactly if a comment in front of
its code bears the tag.** -/
theorem Member.tagged_iff {cs : List Char} {m : Member}
    (h : m ∈ Member.ofBody (markFrom .code cs)) :
    m.tagged = true ↔ m.BearsTagInFront := by
  obtain ⟨segment, blanks, hmember, hpart, hblanks, hchars⟩ := exists_segment_of_mem_ofBody h
  obtain ⟨hcode, -, htagged⟩ := eq_of_ofSegment? hmember
  have hvisible : HasCode segment.chars := by
    by_contra hnone
    refine hcode (Text.trim_of_blank fun c hc => ?_)
    obtain ⟨d, hd, rfl⟩ := List.mem_map.1 hc
    by_contra hblank
    exact hnone ⟨d, by rwa [hpart.marked], by simpa using hblank⟩
  rw [htagged, Text.occursIn_iff, ← hpart.marked]
  show BearsTag (leading segment.chars) ↔ _
  rw [bearsTag_leading hvisible, hchars, commentsInFront_blanks_append hblanks]
  rfl

section

variable {m : Member} {comments annotations : List FrontItem}

/-- Comments in front of all annotations, the last of which is the
documentation if it is a block comment. -/
theorem ownJavadoc?_of_frontItems {cs : List Char} (h : frontItems cs = comments ++ annotations)
    (hcomments : ∀ item ∈ comments, item.isComment = true)
    (hannotations : ∀ item ∈ annotations, item.isComment = false) :
    commentsInFront cs = comments ∧
      ownJavadoc? cs = (comments.getLast?.filter (·.kind == .blockComment)).map (·.text) := by
  have hfirst : (annotations.takeWhile (·.isComment)) = [] := by
    cases annotations with
    | nil => rfl
    | cons item annotations =>
      exact List.takeWhile_cons_of_neg (by simp [hannotations item List.mem_cons_self])
  have hbehind : ∀ item ∈ annotations.reverse, (!item.isComment) = true := fun item hitem => by
    simp [hannotations item (List.mem_reverse.1 hitem)]
  constructor
  · rw [commentsInFront, h, List.takeWhile_append_of_pos hcomments, hfirst, List.append_nil]
  · rw [ownJavadoc?, h, List.reverse_append, List.dropWhile_append_of_pos hbehind]
    rcases List.eq_nil_or_concat comments with rfl | ⟨front, last, rfl⟩
    · rfl
    · have hlast : last.isComment = true := hcomments last (by simp)
      rw [List.concat_eq_append, List.reverse_append, List.reverse_singleton, List.singleton_append,
        List.dropWhile_cons_of_neg (by simp [hlast]), List.getLast?_concat]
      obtain ⟨kind, text⟩ := last
      cases kind <;> rfl

/-- **A member with no comment in front but its documentation** is judged by
its documentation. -/
theorem Member.bearsTagInFront_iff_of_single
    (h : frontItems m.text.toList = comments ++ annotations)
    (hcomments : ∀ item ∈ comments, item.kind = .blockComment) (hsingle : comments.length ≤ 1)
    (hannotations : ∀ item ∈ annotations, item.isComment = false) :
    m.BearsTagInFront ↔ m.BearsOwnTag := by
  have hall : ∀ item ∈ comments, item.isComment = true := fun item hitem => by
    rw [FrontItem.isComment, hcomments item hitem]
    rfl
  obtain ⟨hfront, hown⟩ := ownJavadoc?_of_frontItems h hall hannotations
  rw [BearsTagInFront, BearsOwnTag, hfront, hown]
  match comments, hsingle, hcomments with
  | [], _, _ => simp
  | [item], _, hblock => simp [hblock item List.mem_cons_self]

end

namespace JavaUnit

/-- The unit that a merge writes. -/
def mergedFrom (fresh : JavaUnit) (old : Declared) : JavaUnit :=
  (fresh.keepHeader old).keepMembers ((Member.ofBody old.body).filter (!·.tagged))

/-- The members of the type in an existing file. -/
def oldMembers (existing : String) : List Member :=
  ((Declared.ofSource? (ofText existing)).map fun old => Member.ofBody old.body).getD []

/-- **The member is kept**: it is one of those that are written verbatim into
the merged text. -/
def Keeps (fresh : JavaUnit) (existing merged : String) (m : Member) : Prop :=
  ∃ old, Declared.ofSource? (ofText existing) = some old ∧ (fresh.mergedFrom old).render = merged ∧
    m.text ∈ (fresh.mergedFrom old).retained ∧ m.text.toList <:+: merged.toList

/-- **Only members whose own documentation bears the tag are regenerated**;
all others are kept. -/
def KeepsUntagged (fresh : JavaUnit) (existing merged : String) : Prop :=
  ∀ m ∈ oldMembers existing, ¬ m.BearsOwnTag → fresh.Keeps existing merged m

section

variable {fresh : JavaUnit} {existing merged : String} {m : Member}

theorem exists_of_mergeInto (h : fresh.mergeInto existing = .ok merged) :
    ∃ old, Declared.ofSource? (ofText existing) = some old ∧
    (fresh.mergedFrom old).render = merged := by
  cases hold : Declared.ofSource? (ofText existing) with
  | none =>
    rw [mergeInto, hold] at h
    cases h
  | some old => exact ⟨old, rfl, ((mergeInto_eq_ok_iff_of_declared hold).1 h).2⟩

theorem exists_merged (h : (fresh.mergeInto existing).isOk = true) :
    ∃ merged, fresh.mergeInto existing = .ok merged := by
  cases hmerged : fresh.mergeInto existing with
  | error reason =>
    rw [hmerged] at h
    cases h
  | ok merged => exact ⟨merged, rfl⟩

/-- **A unit without imports, interfaces and annotations is merged too**: they
make no difference to whether the declaration fits. -/
theorem exists_mergeInto_bare (h : fresh.mergeInto existing = .ok merged) :
    ∃ bare : JavaUnit, bare.type = fresh.type ∧ bare.imports = [] ∧ bare.superInterfaces = [] ∧
    bare.annotations = [] ∧
      ∃ written, bare.mergeInto existing = .ok written := by
  obtain ⟨old, hold, -⟩ := exists_of_mergeInto h
  have hfits := ((mergeInto_eq_ok_iff_of_declared hold).1 h).1
  exact ⟨{ fresh with imports := [], superInterfaces := [], annotations := [] }, rfl, rfl, rfl, rfl,
    _, (mergeInto_eq_ok_iff_of_declared hold).2 ⟨hfits, rfl⟩⟩

/-- **A member is kept exactly if no comment in front of its code bears the
tag.** -/
theorem keeps_iff (h : fresh.mergeInto existing = .ok merged) (hm : m ∈ oldMembers existing) :
    fresh.Keeps existing merged m ↔ ¬ m.BearsTagInFront := by
  obtain ⟨old, hold, hrender⟩ := exists_of_mergeInto h
  have hmem : m ∈ Member.ofBody old.body := by
    rwa [oldMembers, hold] at hm
  have htagged : ∀ other ∈ Member.ofBody old.body,
      (other.tagged = true ↔ other.BearsTagInFront) := by
    rw [← Declared.markFrom_body hold]
    exact fun other => Member.tagged_iff
  constructor
  · rintro ⟨found, hfound, -, hretained, -⟩ hfront
    obtain rfl := Option.some.inj (hold.symm.trans hfound)
    -- the text tells whether a member is taken for generated
    obtain ⟨other, hother, htext⟩ := List.mem_map.1 hretained
    obtain ⟨hbody, hkept⟩ := List.mem_filter.1 hother
    have hothers : ¬ other.BearsTagInFront := by simpa [← htagged other hbody] using hkept
    exact hothers (by rwa [Member.BearsTagInFront, htext])
  · intro hfront
    have hretained : m.text ∈ (fresh.mergedFrom old).retained :=
      List.mem_map_of_mem (List.mem_filter.2 ⟨hmem, by simpa [← htagged m hmem] using hfront⟩)
    have hwritten : memberIndent ++ m.text ++ "\n" ∈ (fresh.mergedFrom old).memberTexts :=
      List.mem_append_right _ (List.mem_map_of_mem hretained)
    refine ⟨old, hold, hrender, hretained, ?_⟩
    rw [← hrender]
    refine List.IsInfix.trans ?_ (infix_render hwritten)
    rw [String.toList_append, String.toList_append]
    exact ⟨_, _, rfl⟩

/-- **A member with no comment in front but its documentation** is kept
exactly if its documentation does not bear the tag. -/
theorem keeps_iff_of_single (h : fresh.mergeInto existing = .ok merged)
    (hm : m ∈ oldMembers existing)
    {comments annotations : List FrontItem}
    (hfront : frontItems m.text.toList = comments ++ annotations)
    (hcomments : ∀ item ∈ comments, item.kind = .blockComment) (hsingle : comments.length ≤ 1)
    (hannotations : ∀ item ∈ annotations, item.isComment = false) :
    fresh.Keeps existing merged m ↔ ¬ m.BearsOwnTag := by
  rw [keeps_iff h hm, Member.bearsTagInFront_iff_of_single hfront hcomments hsingle hannotations]

/-- **Only members whose own documentation bears the tag are regenerated,
exactly if the tag is nowhere else in front of a member**: wherever a comment
in front of a member bears it, so does the documentation of the member. -/
theorem keepsUntagged_iff (h : fresh.mergeInto existing = .ok merged) :
    fresh.KeepsUntagged existing merged ↔ ∀ m ∈ oldMembers existing, m.BearsTagInFront → m.BearsOwnTag := by
  refine forall₂_congr fun m hm => ?_
  rw [keeps_iff h hm, not_imp_not]

end

/-! ## Two files -/

/-- A method of its own in a class. -/
def trimMethod : String :=
  "    /** Trims. */\n    @Deprecated\n    void trim() \x7b \x7d\n"

/-- A class with a generated field and the method. -/
def trimmedOrders : String :=
  "public class Orders \x7b\n    /** @mapper.generated */\n    String code;\n\n" ++
    trimMethod ++ "\x7d\n"

/-- The class when the field has been deleted and its documentation has
not. -/
def leftoverOrders : String :=
  "public class Orders \x7b\n    /** @mapper.generated */\n\n" ++ trimMethod ++ "\x7d\n"

/-- A method with its own documentation is kept. -/
theorem keepsUntagged_trimmedOrders :
    ∃ merged, orders.mergeInto trimmedOrders = .ok merged ∧ orders.KeepsUntagged trimmedOrders merged := by
  obtain ⟨merged, hmerged⟩ : ∃ merged, orders.mergeInto trimmedOrders = .ok merged :=
    exists_merged (by decide +kernel)
  exact ⟨merged, hmerged, (keepsUntagged_iff hmerged).2 (by decide +kernel)⟩

/-- **A method is lost with the documentation that a deleted field has left
behind.** -/
theorem mergeInto_leftoverOrders : ∃ m ∈ oldMembers leftoverOrders, ¬ m.BearsOwnTag ∧
    orders.mergeInto leftoverOrders = .ok orders.render ∧ ¬ m.text.toList <:+: orders.render.toList := by
  refine ⟨⟨some ⟨"trim", some 0⟩, true,
    "/** @mapper.generated */\n\n    /** Trims. */\n    @Deprecated\n    void trim() \x7b \x7d"⟩,
    ?_⟩
  decide +kernel

end JavaUnit

end TableMapper
