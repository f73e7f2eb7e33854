import TableMapper.Proofs.Merge.BodySlices

/-!
# The segments of a type body leave nothing out

A segment can end with a closing brace or a semicolon that stands in no inner
braces (`Ends`). That alone does not say where a body is cut: behind a closing
brace the segment may go on to a semicolon, and the pass over the bytes jumps to
it, over blanks that it never looks at again. So the segments are described as a
whole (`Partitions`): they follow one another from the beginning of the body to
the last place where one can end, each of them ends once, and a semicolon behind
a closing brace is not cut off from it. **There is one such list of segments for
every body, and it is the one that is read** (`partitions_segments`,
`Partitions.unique`). The pass over the bytes cuts the text exactly between
these segments (`Member.splitBody?_partitions`).
-/

namespace TableMapper

open Text

namespace Source

/-- **A part with which a segment can end**: in front of the brace that closes
the body, with a closing brace or a semicolon that stands in no inner braces. -/
structure Ends (part : Source) : Prop where
  nested : Nested part
  terminator : ∃ front last, part = front ++ [last] ∧ isTerminator last = true

/-- **A segment ends once**: not before its last character, except with a
closing brace that nothing but a semicolon follows. -/
def EndsOnce (segment : Source) : Prop :=
  ∀ part gap, segment = part ++ gap → gap ≠ [] → Ends part → endsWithBrace part = true ∧
    trimmedCodes gap = [';']

/-- **The segments of a body.** -/
structure Partitions (body : Source) (segs : List Source) : Prop where
  /-- They follow one another from the beginning of the body. -/
  front : segs.flatten <+: body
  /-- No segment can end behind the last one. -/
  last : ∀ part, part <+: body → Ends part → part <+: segs.flatten
  ends : ∀ segment ∈ segs, Ends segment
  once : ∀ segment ∈ segs, EndsOnce segment
  /-- A semicolon that follows a closing brace behind blanks is in the segment
  that the brace is in. -/
  semicolon : ∀ done segment more front brace blanks semicolon behind,
    segs = done ++ segment :: more →
    body = done.flatten ++ (front ++ brace :: (blanks ++ semicolon :: behind)) →
    brace.code = '\x7d' → Blank (codes blanks) → semicolon.code = ';' →
    front.length < segment.length → front.length + 1 + blanks.length < segment.length

section

variable {depth : Nat} {c last : SourceChar} {body part gap rest front segment : Source}
  {segs others : List Source}

/-! ## Where a segment can end -/

theorem Ends.ne_nil (h : Ends part) : part ≠ [] := by
  obtain ⟨front, last, rfl, -⟩ := h.terminator
  exact List.append_ne_nil_of_right_ne_nil front (List.cons_ne_nil last [])

theorem Ends.isTerminator (h : Ends (part ++ [c])) : isTerminator c = true := by
  obtain ⟨front, last, hcut, hlast⟩ := h.terminator
  obtain ⟨-, hc⟩ := List.append_inj' hcut rfl
  exact List.singleton_inj.1 hc ▸ hlast

/-- Behind a nested part a segment can end where it can by itself. -/
theorem Ends.of_append (h : Ends (part ++ gap)) (hpart : Nested part) (hne : gap ≠ []) :
    Ends gap where
  nested := by
    have hnested := h.nested
    rwa [Nested, depthAfter_append, hpart, Option.bind_some] at hnested
  terminator := by
    obtain ⟨middle, c, rfl⟩ := (List.eq_nil_or_concat' gap).resolve_left hne
    rw [← List.append_assoc] at h
    exact ⟨middle, c, rfl, h.isTerminator⟩

theorem Ends.append (hpart : Nested part) (h : Ends gap) : Ends (part ++ gap) where
  nested := hpart.append h.nested
  terminator := by
    obtain ⟨front, last, rfl, hlast⟩ := h.terminator
    exact ⟨part ++ front, last, (List.append_assoc _ _ _).symm, hlast⟩

/-- A character with which a segment can end ends it. -/
theorem cutFrom_terminator (hc : isTerminator c = true) (h : depthAfter depth [c] = some 0)
    (segment rest : Source) :
    cutFrom depth segment (c :: rest) = (c :: segment).reverse :: cutFrom 0 [] rest := by
  rw [isTerminator, Bool.or_eq_true, beq_iff_eq, beq_iff_eq] at hc
  rcases hc with hclose | hsemicolon
  · cases depth with
    | zero =>
      rw [depthAfter_close_zero hclose] at h
      cases h
    | succ depth =>
      rw [depthAfter_close_succ hclose] at h
      obtain rfl : depth = 0 := Option.some.inj h
      exact cutFrom_close_one hclose segment rest
  · rw [depthAfter_other (by rw [hsemicolon]; decide) (by rw [hsemicolon]; decide)] at h
    obtain rfl := Option.some.inj h
    exact cutFrom_semicolon hsemicolon segment rest

/-- **The search ends a segment no later than where it can end.** -/
theorem exists_cutFrom_of_terminator (h : depthAfter depth (front ++ [last]) = some 0)
    (hlast : isTerminator last = true) (segment rest : Source) :
    ∃ part gap, front ++ [last] = part ++ gap ∧
      cutFrom depth segment (front ++ [last] ++ rest)
        = (segment.reverse ++ part) :: cutFrom 0 [] (gap ++ rest) := by
  -- the search can end a segment before, but only within the part
  induction front generalizing depth segment with
  | nil => exact ⟨[last], [], rfl, by simpa using cutFrom_terminator hlast h segment rest⟩
  | cons c front ih =>
    rcases cutFrom_cases c depth with ⟨next, hdepth, hcut⟩ | ⟨-, -, hcut⟩ | ⟨hclose, rfl⟩
    · obtain ⟨part, gap, hpart, hfound⟩ := ih (hdepth _ ▸ h) (c :: segment)
      refine ⟨c :: part, gap, congrArg (List.cons c) hpart, ?_⟩
      rw [List.cons_append, List.cons_append, hcut, hfound]
      simp
    · exact ⟨[c], front ++ [last], rfl, by simp [hcut]⟩
    · rw [List.cons_append, depthAfter_close_zero hclose] at h
      cases h

/-- What is cut in front of the place where a segment can end. -/
theorem Ends.exists_cutFrom (h : Ends part) (rest : Source) :
    ∃ front gap, part = front ++ gap ∧
    cutFrom 0 [] (part ++ rest) = front :: cutFrom 0 [] (gap ++ rest) := by
  obtain ⟨front, last, rfl, hlast⟩ := h.terminator
  exact exists_cutFrom_of_terminator h.nested hlast [] rest

theorem not_ends_of_cutFrom_eq_nil (h : cutFrom 0 [] body = []) (hpart : part <+: body) :
    ¬ Ends part := by
  intro hends
  obtain ⟨rest, rfl⟩ := hpart
  obtain ⟨front, gap, -, hcut⟩ := hends.exists_cutFrom rest
  exact List.cons_ne_nil _ _ (hcut.symm.trans h)

/-- **A part that is cut off**: a segment can end with it, and not sooner. -/
structure IsCut (part : Source) : Prop extends Ends part where
  soonest : ∀ front gap, part = front ++ gap → Ends front → gap = []

/-- **The first segment of a body is cut off it.** -/
theorem exists_isCut_of_cutFrom (h : cutFrom 0 [] body = segment :: segs) :
    ∃ rest, body = segment ++ rest ∧ cutFrom 0 [] rest = segs ∧ IsCut segment := by
  obtain ⟨part, rest, rfl, hsegment, hrest, hnested, hlast⟩ := exists_of_cutFrom_eq_cons h
  obtain rfl : segment = part := hsegment
  refine ⟨rest, rfl, hrest, ⟨hnested, hlast⟩, ?_⟩
  rintro front gap rfl hends
  obtain ⟨begun, left, hfront, hcut⟩ := hends.exists_cutFrom (gap ++ rest)
  rw [List.append_assoc, hcut] at h
  have hlength := congrArg List.length (List.cons.inj h).1
  rw [hfront, List.length_append, List.length_append] at hlength
  exact List.length_eq_zero_iff.1 (by omega)

/-! ## One segment in front of others -/

/-- **A segment in front of the rest of a body.** -/
structure IsFirst (segment rest : Source) : Prop where
  ends : Ends segment
  once : EndsOnce segment
  /-- No semicolon is cut off from the brace at the end. -/
  closed : endsWithBrace segment = true → ∀ c ∈ (skipBlanks rest).head?, c.code ≠ ';'

variable {brace semicolon : SourceChar} {blanks behind : Source}

/-- A brace in a segment has the semicolon behind it in the segment. -/
theorem IsFirst.semicolon_lt (h : IsFirst segment rest)
    (hbody : segment ++ rest = front ++ brace :: (blanks ++ semicolon :: behind))
    (hbrace : brace.code = '\x7d')
    (hblanks : Blank (codes blanks)) (hsemicolon : semicolon.code = ';')
    (hin : front.length < segment.length) :
    front.length + 1 + blanks.length < segment.length := by
  by_contra hnot
  -- the segment would end among the blanks, hence with the brace
  have hsegment : segment <+: front ++ [brace] ++ blanks := by
    refine List.prefix_of_prefix_length_le ⟨rest, hbody⟩ ⟨semicolon :: behind, by simp⟩ ?_
    simp only [List.length_append, List.length_singleton]
    omega
  obtain ⟨cut, rfl⟩ : front ++ [brace] <+: segment := by
    refine List.prefix_of_prefix_length_le ⟨blanks ++ semicolon :: behind, by simp⟩ ⟨rest, hbody⟩ ?_
    simp only [List.length_append, List.length_singleton]
    omega
  obtain ⟨left, rfl⟩ := (List.prefix_append_right_inj _).1 hsegment
  have hrest : rest = left ++ semicolon :: behind := by simpa using hbody
  have hcode : ∀ c ∈ cut ++ left, isBlank c.code = true :=
    fun c hc => hblanks c.code (List.mem_map_of_mem hc)
  rcases List.eq_nil_or_concat' cut with rfl | ⟨middle, c, rfl⟩
  · refine h.closed ?_ semicolon ?_ hsemicolon
    · rw [List.append_nil, endsWithBrace_concat, hbrace]
      rfl
    · rw [hrest, skipBlanks, List.dropWhile_append_of_pos fun c hc =>
        hcode c (List.mem_append_right _ hc),
          List.dropWhile_cons_of_neg (by rw [hsemicolon]; decide)]
      rfl
  · have hends := h.ends
    rw [← List.append_assoc] at hends
    obtain ⟨d, rfl, -, hd⟩ := exists_shown_of_isTerminator hends.isTerminator
    have hblank := hcode (shown d) (by simp)
    rw [code_shown, hd] at hblank
    exact Bool.noConfusion hblank

theorem partitions_nil (h : cutFrom 0 [] body = []) : Partitions body [] where
  front := List.nil_prefix
  last part hpart hends := absurd hends (not_ends_of_cutFrom_eq_nil h hpart)
  ends := List.forall_mem_nil _
  once := List.forall_mem_nil _
  semicolon done segment more _ _ _ _ _ hsegs := absurd hsegs.symm (by simp)

theorem Partitions.cons (hrest : Partitions rest segs) (h : IsFirst segment rest) :
    Partitions (segment ++ rest) (segment :: segs) where
  front := (List.prefix_append_right_inj segment).2 hrest.front
  last := by
    intro part hpart hends
    rw [List.flatten_cons]
    rcases List.prefix_or_prefix_of_prefix hpart
      (List.prefix_append segment rest) with hin | ⟨gap, rfl⟩
    · exact hin.trans (List.prefix_append segment segs.flatten)
    · rw [List.prefix_append_right_inj] at hpart ⊢
      rcases eq_or_ne gap [] with rfl | hne
      · exact List.nil_prefix
      · exact hrest.last gap hpart (hends.of_append h.ends.nested hne)
  ends := List.forall_mem_cons.2 ⟨h.ends, hrest.ends⟩
  once := List.forall_mem_cons.2 ⟨h.once, hrest.once⟩
  semicolon := by
    intro done found more front brace blanks semicolon behind hsegs hbody
    cases done with
    | nil =>
      obtain ⟨rfl, -⟩ := List.cons.inj hsegs
      exact h.semicolon_lt hbody
    | cons first done =>
      obtain ⟨rfl, hmore⟩ := List.cons.inj hsegs
      rw [List.flatten_cons, List.append_assoc] at hbody
      exact hrest.semicolon done found more front brace blanks semicolon behind hmore
        (List.append_cancel_left hbody)

/-! ## The segments that are read -/

/-- A semicolon behind blanks is cut off by itself. -/
theorem exists_cutFrom_of_skipBlanks (h : ∃ c ∈ (skipBlanks rest).head?, c.code = ';') :
    ∃ gap more, cutFrom 0 [] rest = gap :: cutFrom 0 [] more ∧ trimmedCodes gap = [';'] := by
  obtain ⟨blanks, semicolon, more, rfl, hblanks, hcode⟩ := exists_of_skipBlanks h
  refine ⟨blanks ++ [semicolon], more, cutFrom_blanks_semicolon hblanks hcode more, ?_⟩
  rw [trimmedCodes, codes_append, trim_blanks_append hblanks, codes_cons, hcode]
  decide

/-- A segment that is joined with no other. -/
theorem isFirst_of_cutFrom (h : cutFrom 0 [] (segment ++ rest) = segment :: cutFrom 0 [] rest)
    (hsecond : ∀ second ∈ (cutFrom 0 [] rest).head?,
      ¬ (endsWithBrace segment = true ∧ trimmedCodes second = [';'])) :
    IsFirst segment rest := by
  obtain ⟨-, -, -, hcut⟩ := exists_isCut_of_cutFrom h
  refine ⟨hcut.toEnds, fun part gap hsegment hne hends =>
    absurd (hcut.soonest part gap hsegment hends) hne, ?_⟩
  intro hbrace c hc hcode
  obtain ⟨gap, more, hgap, hsemicolon⟩ := exists_cutFrom_of_skipBlanks ⟨c, hc, hcode⟩
  exact hsecond gap (by rw [hgap]; rfl) ⟨hbrace, hsemicolon⟩

/-- A segment that is joined with the semicolon behind it. -/
theorem isFirst_of_joined {first second : Source} (hfirst : IsCut first) (hsecond : IsCut second)
    (hbrace : endsWithBrace first = true) (hsemicolon : trimmedCodes second = [';'])
    (rest : Source) :
    IsFirst (first ++ second) rest where
  ends := hsecond.toEnds.append hfirst.nested
  once := by
    intro part gap hcut hne hends
    rcases List.append_eq_append_iff.1 hcut with ⟨more, rfl, hgap⟩ | ⟨more, rfl, rfl⟩
    · rcases eq_or_ne more [] with rfl | hmore
      · obtain rfl : second = gap := hgap
        rw [List.append_nil]
        exact ⟨hbrace, hsemicolon⟩
      · exact absurd (hsecond.soonest more gap hgap (hends.of_append hfirst.nested hmore)) hne
    · obtain rfl := hfirst.soonest part more rfl hends
      rw [List.append_nil] at hbrace
      exact ⟨hbrace, hsemicolon⟩
  closed := by
    intro hends
    obtain ⟨before, last, rfl, -⟩ := hsecond.terminator
    have hsecondEnds := endsWithBrace_of_trimmedCodes hsemicolon
    rw [endsWithBrace_concat] at hsecondEnds
    rw [← List.append_assoc, endsWithBrace_concat, hsecondEnds] at hends
    exact Bool.noConfusion hends

/-- **The segments that are read are the segments of the body.** -/
theorem partitions_segments (body : Source) : Partitions body (segments body) := by
  rw [segments]
  generalize hsegs : cutFrom 0 [] body = segs
  -- along the joining: each step takes one segment off the body, or two that are joined
  fun_induction joinSemicolons segs generalizing body with
  | case1 first second others hjoin ih =>
    rw [Bool.and_eq_true, beq_iff_eq] at hjoin
    obtain ⟨behind, rfl, hbehind, hfirst⟩ := exists_isCut_of_cutFrom hsegs
    obtain ⟨rest, rfl, hrest, hsecond⟩ := exists_isCut_of_cutFrom hbehind
    rw [← List.append_assoc]
    exact (ih rest hrest).cons (isFirst_of_joined hfirst hsecond hjoin.1 hjoin.2 rest)
  | case2 first second others hjoin ih =>
    rw [Bool.and_eq_true, beq_iff_eq] at hjoin
    obtain ⟨rest, rfl, hrest, -⟩ := exists_isCut_of_cutFrom hsegs
    refine (ih rest hrest).cons (isFirst_of_cutFrom (hrest.symm ▸ hsegs) ?_)
    rw [hrest]
    rintro _ ⟨⟩
    exact hjoin
  | case3 segs hnone =>
    rcases segs with _ | ⟨segment, _ | ⟨second, others⟩⟩
    · exact partitions_nil hsegs
    · obtain ⟨rest, rfl, hrest, -⟩ := exists_isCut_of_cutFrom hsegs
      refine (partitions_nil hrest).cons (isFirst_of_cutFrom (hrest.symm ▸ hsegs) ?_)
      rw [hrest]
      exact fun second hsecond => absurd hsecond (Option.not_mem_none second)
    · exact absurd rfl (hnone segment second others)

/-! ## No other segments -/

theorem Partitions.tail (h : Partitions body (segment :: segs)) :
    ∃ rest, body = segment ++ rest ∧ Partitions rest segs := by
  obtain ⟨behind, rfl⟩ := h.front
  rw [List.flatten_cons, List.append_assoc] at h ⊢
  refine ⟨segs.flatten ++ behind, rfl, List.prefix_append _ _, ?_, ?_, ?_, ?_⟩
  case refine_1 =>
    intro part hpart hends
    have hlast := h.last (segment ++ part) ((List.prefix_append_right_inj segment).2 hpart)
      (hends.append (h.ends segment List.mem_cons_self).nested)
    rwa [List.flatten_cons, List.prefix_append_right_inj] at hlast
  case refine_2 => exact fun found hfound => h.ends found (List.mem_cons_of_mem segment hfound)
  case refine_3 => exact fun found hfound => h.once found (List.mem_cons_of_mem segment hfound)
  case refine_4 =>
    intro done found more front brace blanks semicolon behind hsegs hbody
    refine h.semicolon (segment :: done) found more front brace blanks semicolon behind ?_ ?_
    · rw [hsegs, List.cons_append]
    · rw [hbody, List.flatten_cons, List.append_assoc]

/-- The first segment is no longer than that of another list. -/
theorem Partitions.length_le {first other : Source} (h : Partitions body (first :: segs))
    (hothers : Partitions body (other :: others)) : other.length ≤ first.length := by
  by_contra hlonger
  obtain ⟨rest, hbody, -⟩ := h.tail
  obtain ⟨behind, rfl, -⟩ := hothers.tail
  obtain ⟨gap, rfl⟩ : first <+: other :=
    List.prefix_of_prefix_length_le ⟨rest, hbody.symm⟩ (List.prefix_append other behind) (by omega)
  have hne : gap ≠ [] := by
    rintro rfl
    simp at hlonger
  -- the other one would go on to a semicolon that is cut off from a brace here
  obtain ⟨hbrace, hsemicolon⟩ :=
    hothers.once _ List.mem_cons_self first gap rfl hne (h.ends first List.mem_cons_self)
  obtain ⟨before, last, rfl, -⟩ := (h.ends first List.mem_cons_self).terminator
  rw [endsWithBrace_concat, beq_iff_eq] at hbrace
  obtain ⟨blanks, semicolon, more, rfl, hblanks, hcode⟩ := exists_of_trimmedCodes hsemicolon
  have hlength := h.semicolon [] (before ++ [last]) segs before last blanks semicolon
    (more ++ behind) rfl
    (by simp) hbrace hblanks hcode (by simp)
  simp only [List.length_append, List.length_singleton] at hlength
  omega

/-- **A body has no other segments.** -/
theorem Partitions.unique (h : Partitions body segs) (hothers : Partitions body others) :
    segs = others := by
  have hnone : ∀ {body first : Source} {segs : List Source}, Partitions body [] →
      ¬ Partitions body (first :: segs) := by
    intro body first segs hnil hcons
    have hends := hcons.ends first List.mem_cons_self
    obtain ⟨rest, rfl, -⟩ := hcons.tail
    exact hends.ne_nil (List.prefix_nil.1 (hnil.last first (List.prefix_append first rest) hends))
  induction segs generalizing body others with
  | nil =>
    cases others with
    | nil => rfl
    | cons other others => exact absurd hothers (hnone h)
  | cons first segs ih =>
    cases others with
    | nil => exact absurd h (hnone hothers)
    | cons other others =>
      have hlength := Nat.le_antisymm (hothers.length_le h) (h.length_le hothers)
      obtain ⟨rest, rfl, hrest⟩ := h.tail
      obtain ⟨behind, hbody, hbehind⟩ := hothers.tail
      obtain ⟨rfl, rfl⟩ := List.append_inj hbody hlength
      rw [ih hrest hbehind]

/-! ## Places in the text -/

/-- **The places between which the segments stand**, in bytes, the first of
which begins at `start`. -/
def spans (start : Nat) : List Source → List (Nat × Nat)
  | [] => []
  | segment :: segs =>
    let stop := start + byteLength segment.chars
    (start, stop) :: spans stop segs

/-- **The segments are slices of both texts.** -/
theorem forall₂_spans {whole : Source} (h : whole = front ++ (segs.flatten ++ rest)) :
    List.Forall₂ (fun place segment => slice? place.1 place.2 whole.chars = some segment.chars ∧
      slice? place.1 place.2 whole.blanked = some segment.blanked)
        (spans (byteLength front.chars) segs) segs := by
  induction segs generalizing front with
  | nil => exact .nil
  | cons segment segs ih =>
    have hwhole : whole = front ++ (segment ++ (segs.flatten ++ rest)) := by
      rw [h, List.flatten_cons, List.append_assoc]
    have hstop : byteLength front.chars + byteLength segment.chars
        = byteLength (front ++ segment).chars := by
      rw [chars_append, byteLength_append]
    rw [spans, hstop]
    exact .cons ⟨slice?_chars hwhole, slice?_blanked hwhole⟩
      (ih (by rw [hwhole, List.append_assoc]))

/-- A segment holds no member if it is a semicolon alone. -/
theorem Ends.ofSegment?_eq_none_iff (h : Ends segment) :
    Member.ofSegment? segment = none ↔ trimmedCodes segment = [';'] := by
  obtain ⟨before, last, rfl, hlast⟩ := h.terminator
  obtain ⟨d, rfl, -, hd⟩ := exists_shown_of_isTerminator hlast
  have hne : trimmedCodes (before ++ [shown d]) ≠ [] := by
    rw [trimmedCodes, codes_append]
    intro hempty
    have hfilter := filter_trim (codes before ++ [d])
    rw [show trim (codes before ++ [d]) = [] from hempty, List.filter_append] at hfilter
    simp [hd] at hfilter
  simp [Member.ofSegment?, hne]

end

end Source

namespace Member

open Source

/-- **The pass over the bytes of a body cuts it into its segments**, wherever
the body begins in the text. The segments are slices of the text and of the
masked text, one beginning where the one before it ends; there are no other
segments of the body; and the members are those of the segments, of which only
lone semicolons hold none. -/
theorem splitBody?_partitions {text : String} {front body : Source} (h : ofText text = front ++ body) :
    Partitions body (segments body) ∧ (∀ segs, Partitions body segs → segs = segments body) ∧
      List.Forall₂ (fun place segment => slice? place.1 place.2 text.toList = some segment.chars ∧
          slice? place.1 place.2 (ofText text).blanked = some segment.blanked)
        (spans (byteLength front.chars) (segments body)) (segments body) ∧
      splitBody? text.toList (ofText text).blanked (byteLength front.chars) = some (ofBody body) ∧
      ofBody body = (segments body).filterMap ofSegment? ∧
      ∀ segment ∈ segments body, ofSegment? segment = none ↔ trimmedCodes segment = [';'] := by
  have htext : text.toList = (ofText text).chars := by rw [ofText, chars_markFrom]
  have hsegments := partitions_segments body
  obtain ⟨rest, hrest⟩ := hsegments.front
  refine ⟨hsegments, fun segs hsegs => hsegs.unique hsegments, ?_, ?_, rfl, ?_⟩
  case refine_1 =>
    rw [htext]
    exact forall₂_spans (by rw [h, hrest])
  case refine_2 =>
    rw [htext]
    exact splitBody?_eq h
  case refine_3 => exact fun segment hsegment =>
    (hsegments.ends segment hsegment).ofSegment?_eq_none_iff

/-- A class with a class in an initial value, and a semicolon too many. -/
def initializedClass : String :=
  "class A \x7b B b = new B() \x7b int c; \x7d ; ; void f() \x7b \x7d \x7d ;"

/-- **The semicolon behind the inner class ends the field**, the next one is a
segment of its own, and the last one is in none. -/
theorem splitBody?_partitions_initializedClass :
    ∃ front body, ofText initializedClass = front ++ body ∧ Partitions body (segments body) ∧
      (segments body).map Source.text =
        [" B b = new B() \x7b int c; \x7d ;", " ;", " void f() \x7b \x7d"] ∧
      spans (byteLength (chars front)) (segments body) = [(9, 36), (36, 38), (38, 51)] ∧
      splitBody? initializedClass.toList (ofText initializedClass).blanked (byteLength (chars front))
        = some [⟨some ⟨"b", none⟩, false, "B b = new B() \x7b int c; \x7d ;"⟩,
            ⟨some ⟨"f", some 0⟩, false, "void f() \x7b \x7d"⟩] := by
  have hcut : ofText initializedClass
      = (ofText initializedClass).take 9 ++ (ofText initializedClass).drop 9 :=
    (List.take_append_drop 9 _).symm
  have hmembers : ofBody ((ofText initializedClass).drop 9)
      = [⟨some ⟨"b", none⟩, false, "B b = new B() \x7b int c; \x7d ;"⟩,
          ⟨some ⟨"f", some 0⟩, false, "void f() \x7b \x7d"⟩] := by
    decide +kernel
  obtain ⟨hpartitions, -, -, hsplit, -⟩ := splitBody?_partitions hcut
  exact ⟨_, _, hcut, hpartitions, by decide +kernel, by decide +kernel, hmembers ▸ hsplit⟩

end Member

end TableMapper
