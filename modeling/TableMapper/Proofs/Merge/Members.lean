import Mathlib.Data.List.Forall2
import TableMapper.Merge.Member
import TableMapper.Proofs.Text.Trimming
import TableMapper.Proofs.Unit.Comment
import TableMapper.Proofs.Unit.Cutting

/-!
# Members one behind the other

A text that by itself is read as one member (`Member.ReadsAs`) is read as
the same member wherever it stands in a type body, because it ends with a
brace or a semicolon that is code. **The members of a written body are those
of the texts that it was written with** (`ofBody_written`).
-/

namespace TableMapper

/-- **By itself, the text is read as one member**, of which no part is
left out. -/
def Member.ReadsAs (text : String) (member : Member) : Prop :=
  Member.ofBody (Source.ofText text) = [member] ∧ member.text = Text.trimmed text

namespace Source

section

variable {cs blanks : List Char} {segment : Source} {member : Member}

/-! ## Blanks around a member -/

theorem markFrom_blank (h : Text.Blank blanks) (behind : List Char) :
    markFrom .code (blanks ++ behind) = blanks.map shown ++ markFrom .code behind :=
  markFrom_inert (fun c hc => isInert_of_isBlank (h c hc)) behind

theorem isBlank_code_of_blank (h : Text.Blank blanks) :
    ∀ c ∈ blanks.map shown, Text.isBlank c.code = true := by
  intro c hc
  obtain ⟨d, hd, rfl⟩ := List.mem_map.1 hc
  exact h d hd

/-- The retention tag begins with no blank, so blanks in front of a text
hold no part of it. -/
theorem occursIn_retentionTag (h : Text.Blank blanks) (cs : List Char) :
    Text.occursIn Settings.retentionTag.toList (blanks ++ cs)
      = Text.occursIn Settings.retentionTag.toList cs := by
  have hfirst : ∀ c ∈ (Settings.retentionTag.toList).head?, Text.isBlank c = false := by
    rintro c ⟨⟩
    decide
  rw [Bool.eq_iff_iff, Text.occursIn_iff, Text.occursIn_iff]
  exact Text.infix_blanks_append h hfirst (by decide)

/-- **Blanks in front of a segment** are no part of its member. -/
theorem ofSegment?_lead (h : Text.Blank blanks) (segment : Source) :
    Member.ofSegment? (blanks.map shown ++ segment) = Member.ofSegment? segment := by
  have hcode : trimmedCodes (blanks.map shown ++ segment) = trimmedCodes segment := by
    rw [trimmedCodes, codes_append, codes_map_shown, Text.trim_blanks_append h]
    rfl
  have htext : Text.trimmed (text (blanks.map shown ++ segment)) = Text.trimmed (text segment) := by
    rw [Text.trimmed, Text.trimmed, text, text, String.toList_ofList, String.toList_ofList,
      chars_append, chars_map_shown, Text.trim_blanks_append h]
  have hleading : chars ((blanks.map shown ++ segment).takeWhile fun c => Text.isBlank c.code)
      = blanks ++ chars (segment.takeWhile fun c => Text.isBlank c.code) := by
    rw [List.takeWhile_append_of_pos (isBlank_code_of_blank h), chars_append, chars_map_shown]
  unfold Member.ofSegment?
  simp only [hcode, htext, hleading, occursIn_retentionTag h]

/-- A segment that holds a member is more than a semicolon. -/
theorem trimmedCodes_ne (h : Member.ofSegment? segment = some member) :
    trimmedCodes segment ≠ [';'] := by
  intro hcode
  unfold Member.ofSegment? at h
  simp [hcode] at h

/-- Code of which a semicolon is left when it is trimmed does not end with a
brace. -/
theorem endsWithBrace_of_trimmedCodes (h : trimmedCodes segment = [';']) :
    endsWithBrace segment = false := by
  refine Bool.eq_false_iff.2 fun hbrace => ?_
  have hmem : '\x7d' ∈ codes segment := List.mem_of_getLast? (beq_iff_eq.1 hbrace)
  have hkept : '\x7d' ∈ (codes segment).filter (!Text.isBlank ·) :=
    List.mem_filter.2 ⟨hmem, by decide⟩
  rw [← Text.filter_trim (codes segment), show Text.trim (codes segment) = [';'] from h] at hkept
  exact absurd hkept (by decide)

/-- What is joined to a member stands behind it. -/
theorem exists_first {segs : List Source} (hjoined : joinSemicolons segs = [segment])
    (hmember : Member.ofSegment? segment = some member) :
    ∃ first more, segs = first :: more ∧ trimmedCodes first ≠ [';'] := by
  rcases joinSemicolons_eq_singleton hjoined with rfl | ⟨first, second, rfl, hbrace, rfl⟩
  · exact ⟨segment, [], rfl, trimmedCodes_ne hmember⟩
  · refine ⟨first, [second], rfl, fun hcode => ?_⟩
    rw [endsWithBrace_of_trimmedCodes hcode] at hbrace
    exact Bool.noConfusion hbrace

/-! ## A text with one member -/

/-- **A text that holds one member wherever it stands**: a front part of it
is cut into the segment of the member, and what follows it are blanks. -/
structure Holds (cs : List Char) (member : Member) : Prop where
  settled : Settled cs
  exists_part : ∃ part blanks segs, markFrom .code cs = part ++ blanks.map shown ∧
    Text.Blank blanks ∧ Cuts part segs ∧ joinSemicolons segs = [part] ∧
    Member.ofSegment? part = some member

theorem Holds.lead (h : Holds cs member) (hblanks : Text.Blank blanks) :
    Holds (blanks ++ cs) member where
  settled := (silent_of_blank hblanks).settled.append h.settled
  exists_part := by
    obtain ⟨part, behind, segs, hmark, hbehind, hcuts, hjoined, hmember⟩ := h.exists_part
    obtain ⟨first, more, hsegs, -⟩ := exists_first hjoined hmember
    have hlead := isBlank_code_of_blank hblanks
    refine ⟨blanks.map shown ++ part, behind, segs.modifyHead (blanks.map shown ++ ·), ?_, hbehind,
      hcuts.lead (by simp [hsegs]) hlead, ?_, ?_⟩
    · rw [markFrom_blank hblanks, hmark, List.append_assoc]
    · rw [joinSemicolons_lead hlead, hjoined]
      rfl
    · rw [ofSegment?_lead hblanks, hmember]

theorem Holds.trail (h : Holds cs member) (hblanks : Text.Blank blanks) :
    Holds (cs ++ blanks) member where
  settled := h.settled.append (silent_of_blank hblanks).settled
  exists_part := by
    obtain ⟨part, behind, segs, hmark, hbehind, hcuts, hjoined, hmember⟩ := h.exists_part
    refine ⟨part, behind ++ blanks, segs, ?_, hbehind.append hblanks, hcuts, hjoined, hmember⟩
    rw [h.settled, hmark, ← List.append_nil blanks, markFrom_blank hblanks, List.map_append,
      List.append_assoc]
    simp [markFrom]

/-- What has no characters besides blanks has no character that ends a
segment. -/
theorem not_blank_of_mem_segments {body found : Source} (h : found ∈ segments body) :
    (chars found).filter (!Text.isBlank ·) ≠ [] := by
  obtain ⟨segment, hmem, hsubset⟩ := exists_subset_of_mem_joinSemicolons h
  obtain ⟨c, hc, hterminator⟩ := exists_isTerminator hmem
  obtain ⟨d, rfl, -, hd⟩ := exists_shown_of_isTerminator hterminator
  intro hempty
  have hall := List.filter_eq_nil_iff.1 hempty d (List.mem_map_of_mem (hsubset hc))
  simp [hd] at hall

/-- Segments of which only blanks are left are none. -/
theorem eq_nil_of_filter {body : Source} {found : List Source} (hmem : found ⊆ segments body)
    (h : (chars found.flatten).filter (!Text.isBlank ·) = []) : found = [] := by
  cases found with
  | nil => rfl
  | cons first more =>
    rw [List.flatten_cons, chars_append, List.filter_append] at h
    exact absurd (List.append_eq_nil_iff.1 h).1
      (not_blank_of_mem_segments (hmem List.mem_cons_self))

/-- **What a member tells of its segment.** -/
theorem eq_of_ofSegment? (h : Member.ofSegment? segment = some member) :
    trimmedCodes segment ≠ [] ∧ member.text = Text.trimmed (text segment) ∧
      member.tagged = Text.occursIn Settings.retentionTag.toList
        (chars (segment.takeWhile fun c => Text.isBlank c.code)) := by
  unfold Member.ofSegment? at h
  simp only at h
  split at h
  · simp at h
  next hcode =>
    obtain rfl := Option.some.inj h
    refine ⟨fun hempty => hcode ?_, rfl, rfl⟩
    simp [hempty]

end

end Source

namespace Member

variable {text : String} {member : Member}

/-- **What is by itself read as one member holds it wherever it stands.** -/
theorem ReadsAs.holds (h : ReadsAs text member) : Source.Holds text.toList member := by
  obtain ⟨hbody, htext⟩ := h
  obtain ⟨part, tail, hsource, hflatten, hcuts, -, -, hlast⟩ :=
    Source.exists_cuts (Source.ofText text)
  obtain ⟨before, segment, behind, hsegs, -, hmember, -⟩ := List.filterMap_eq_cons_iff.1 hbody
  have hpart : part = before.flatten ++ (segment ++ behind.flatten) := by
    rw [← hflatten, ← Source.flatten_joinSemicolons]
    show (Source.segments (Source.ofText text)).flatten = _
    rw [hsegs, List.flatten_append, List.flatten_cons]
  have hchars : text.toList = Source.chars before.flatten ++ (Source.chars segment ++
      (Source.chars behind.flatten ++ Source.chars tail)) := by
    have hall := congrArg Source.chars hsource
    rw [Source.ofText, Source.chars_markFrom, Source.chars_append, hpart] at hall
    simpa using hall
  -- the text has no more characters than the member, blanks apart
  have hfilter : (text.toList).filter (!Text.isBlank ·)
      = (Source.chars segment).filter (!Text.isBlank ·) := by
    rw [(Source.eq_of_ofSegment? hmember).2.1, ← String.toList_inj] at htext
    rw [← Text.filter_trim text.toList, ← Text.filter_trim (Source.chars segment)]
    simp only [Text.trimmed, Source.text, String.toList_ofList] at htext
    rw [htext]
  have hlength := congrArg List.length hfilter
  rw [hchars] at hlength
  simp only [List.filter_append, List.length_append] at hlength
  have hbefore : before ⊆ Source.segments (Source.ofText text) := by
    rw [hsegs]
    exact List.subset_append_left _ _
  have hbehind : behind ⊆ Source.segments (Source.ofText text) := by
    rw [hsegs]
    exact fun s hs => List.mem_append_right _ (List.mem_cons_of_mem _ hs)
  obtain rfl := Source.eq_nil_of_filter hbefore (List.length_eq_zero_iff.1 (by omega))
  obtain rfl := Source.eq_nil_of_filter hbehind (List.length_eq_zero_iff.1 (by omega))
  have hblank : Text.Blank (Source.chars tail) :=
    Text.blank_of_filter_eq_nil (List.length_eq_zero_iff.1 (by omega))
  obtain rfl : part = segment := by simpa using hpart
  have hmem : part ∈ Source.segments (Source.ofText text) := by
    rw [hsegs]
    exact List.mem_cons_self
  -- the member ends with a character that is code, so it is marked by itself
  have hne : part ≠ [] := by
    rintro rfl
    exact Source.not_blank_of_mem_segments hmem rfl
  obtain ⟨c, hlast, hc, -⟩ := Source.exists_shown_of_isTerminator
    (hlast (part.getLast hne) (List.getLast?_eq_some_getLast hne))
  have hpart : part = part.dropLast ++ [Source.shown c] := by
    rw [← hlast, List.dropLast_concat_getLast]
  have hmark : Source.markFrom .code text.toList = part.dropLast ++ Source.shown c :: tail := by
    show Source.ofText text = _
    rw [hsource, hpart, List.append_assoc, ← hpart]
    rfl
  obtain ⟨hsettled, hown⟩ := Source.settled_of_shown hmark hc
  have hstem : Source.chars part.dropLast ++ [c] = Source.chars part := by
    have hstem := congrArg Source.chars hpart
    rw [Source.chars_append] at hstem
    exact hstem.symm
  rw [hstem] at hsettled hown
  have htail : text.toList = Source.chars part ++ Source.chars tail := by simpa using hchars
  refine ⟨htail ▸ hsettled.append (Source.silent_of_blank hblank).settled, part, Source.chars tail,
    _, ?_, hblank, hcuts, hsegs, hmember⟩
  rw [htail, hsettled, hown, ← hpart, Source.markFrom_of_inert fun d hd =>
    Source.isInert_of_isBlank (hblank d hd)]

/-- A member whose text is read as this very member. -/
theorem ReadsAs.of_self (h : ofBody (Source.ofText member.text) = [member]) :
    ReadsAs member.text member := by
  obtain ⟨_, segment, _, -, -, hmember, -⟩ := List.filterMap_eq_cons_iff.1 h
  refine ⟨h, ?_⟩
  rw [(Source.eq_of_ofSegment? hmember).2.1, Text.trimmed, Text.trimmed, String.toList_ofList,
    Text.trim_trim]

end Member

namespace Source

section

variable {cs ds : List Char} {member : Member}

/-- **A tag in the comments in front of a member** is seen by whoever reads
the member. -/
theorem Holds.tagged (h : Holds (cs ++ ds) member) (hcs : Silent cs)
    (htag : Settings.retentionTag.toList <:+: cs) : member.tagged = true := by
  obtain ⟨part, blanks, segs, hmark, -, -, -, hmember⟩ := h.exists_part
  obtain ⟨hcode, -, htagged⟩ := eq_of_ofSegment? hmember
  rw [hcs.settled] at hmark
  have hpart : ∃ more, part = markFrom .code cs ++ more := by
    rcases List.append_eq_append_iff.1 hmark with ⟨more, hmore, -⟩ | ⟨more, hmore, -⟩
    · exact ⟨more, hmore⟩
    · -- the member is more than the comments
      refine absurd (Text.trim_of_blank ?_) hcode
      intro c hc
      obtain ⟨d, hd, rfl⟩ := List.mem_map.1 hc
      exact hcs.blank d (hmore ▸ List.mem_append_left more hd)
  obtain ⟨more, rfl⟩ := hpart
  rw [htagged, Text.occursIn_iff, List.takeWhile_append_of_pos hcs.blank,
    chars_append, chars_markFrom]
  exact htag.trans (List.prefix_append _ _).isInfix

/-! ## The members of a written body -/

/-- A member in front of what else is in a body. -/
theorem Holds.cutFrom_append (h : Holds cs member) (rest : List Char) :
    ∃ blanks first more, Text.Blank blanks ∧ trimmedCodes first ≠ [';'] ∧
      cutFrom 0 [] (markFrom .code (cs ++ rest))
        = first :: more ++ cutFrom 0 [] (markFrom .code (blanks ++ rest)) ∧
      (joinSemicolons (first :: more)).filterMap Member.ofSegment? = [member] := by
  obtain ⟨part, blanks, segs, hmark, hblanks, hcuts, hjoined, hmember⟩ := h.exists_part
  obtain ⟨first, more, rfl, hfirst⟩ := exists_first hjoined hmember
  refine ⟨blanks, first, more, hblanks, hfirst, ?_, ?_⟩
  · rw [h.settled, hmark, List.append_assoc, hcuts, markFrom_blank hblanks]
  · rw [hjoined, List.filterMap_cons, hmember]
    rfl

/-- The first of several texts stands in front of the others. -/
theorem exists_intercalate_cons (text : String) (texts : List String) :
    ∃ blanks, Text.Blank blanks ∧ ("\n".intercalate (text :: texts)).toList
      = text.toList ++ (blanks ++ ("\n".intercalate texts).toList) := by
  cases texts with
  | nil => exact ⟨[], by decide, by simp⟩
  | cons second texts => exact ⟨['\n'], by decide, by simp [String.toList_intercalate]⟩

/-- The segments of a written body, of which the first is no lone
semicolon. -/
theorem segments_written {texts : List String} {members : List Member}
    (h : List.Forall₂ (fun text member => Holds text.toList member) texts members)
    {front : List Char}
    (hfront : Text.Blank front) (rest : List Char) :
    (segments (markFrom .code
      (front ++ (("\n".intercalate texts).toList ++ '\x7d' :: rest)))).filterMap
        Member.ofSegment? = members ∧
      ∀ first ∈ (cutFrom 0 [] (markFrom .code
          (front ++ (("\n".intercalate texts).toList ++ '\x7d' :: rest)))).head?,
        trimmedCodes first ≠ [';'] := by
  induction h generalizing front with
  | nil =>
    have hnone : cutFrom 0 [] (markFrom .code (front ++ '\x7d' :: rest)) = [] := by
      rw [markFrom_blank hfront, markFrom_plain (by decide),
        cutFrom_blanks (isBlank_code_of_blank hfront), cutFrom_close_zero rfl]
    have htext : front ++ (("\n".intercalate []).toList ++ '\x7d' :: rest)
        = front ++ '\x7d' :: rest := by
      simp
    rw [htext, segments, hnone]
    exact ⟨rfl, by simp⟩
  | @cons text member texts members htext hrest ih =>
    obtain ⟨blanks, hblanks, hcons⟩ := exists_intercalate_cons text texts
    obtain ⟨behind, first, more, hbehind, hfirst, hcut, hmember⟩ :=
      (htext.lead hfront).cutFrom_append
        (blanks ++ (("\n".intercalate texts).toList ++ '\x7d' :: rest))
    obtain ⟨hmembers, hhead⟩ := ih (hbehind.append hblanks)
    rw [List.append_assoc] at hmembers hhead hcut
    have hbody : front ++ (("\n".intercalate (text :: texts)).toList ++ '\x7d' :: rest)
        = front ++ (text.toList ++
          (blanks ++ (("\n".intercalate texts).toList ++ '\x7d' :: rest))) := by
      rw [hcons, List.append_assoc, List.append_assoc]
    rw [hbody, segments, hcut]
    constructor
    · rw [joinSemicolons_append hhead, List.filterMap_append, hmember]
      exact congrArg (member :: ·) hmembers
    · simpa using hfirst

/-- **The members of a written body**, in which each text holds one member,
are those of the texts. -/
theorem ofBody_written {texts : List String} {members : List Member}
    (h : List.Forall₂ (fun text member => Holds text.toList member) texts members)
    {front : List Char}
    (hfront : Text.Blank front) (rest : List Char) :
    Member.ofBody (markFrom .code (front ++ (("\n".intercalate texts).toList ++ '\x7d' :: rest)))
      = members :=
  (segments_written h hfront rest).1

end

end Source

end TableMapper
