import TableMapper.Proofs.Unit.Marking
import TableMapper.Unit.Segment

/-!
# Cutting a type body part by part

Behind a segment the search for the next one starts afresh, so **a part of
a body that consists of segments is cut into these segments, whatever
follows it** (`Cuts`), and such parts can be put one behind the other
(`Cuts.append`). Every body has such a part: its segments, one behind the
other (`exists_cuts`). The rest holds no segment of its own, and nothing in
it is read.
-/

namespace TableMapper.Source

/-- **The part of a body is cut into the segments**, and the search starts
afresh behind it. -/
def Cuts (part : Source) (segs : List Source) : Prop :=
  ∀ behind, cutFrom 0 [] (part ++ behind) = segs ++ cutFrom 0 [] behind

theorem cuts_nil : Cuts [] [] := fun _ => rfl

theorem Cuts.append {part more : Source} {segs others : List Source} (h : Cuts part segs)
    (hmore : Cuts more others) : Cuts (part ++ more) (segs ++ others) := by
  intro behind
  rw [List.append_assoc, h, hmore, List.append_assoc]

/-! ## One character of a body -/

section

variable {depth : Nat} {c : SourceChar}

theorem cutFrom_open (h : c.code = '\x7b') (depth : Nat) (segment rest : Source) :
    cutFrom depth segment (c :: rest) = cutFrom (depth + 1) (c :: segment) rest := by
  simp [cutFrom, h]

theorem cutFrom_close_zero (h : c.code = '\x7d') (segment rest : Source) :
    cutFrom 0 segment (c :: rest) = [] := by
  simp [cutFrom, h]

theorem cutFrom_close_one (h : c.code = '\x7d') (segment rest : Source) :
    cutFrom 1 segment (c :: rest) = (c :: segment).reverse :: cutFrom 0 [] rest := by
  simp [cutFrom, h]

theorem cutFrom_close_add_two (h : c.code = '\x7d') (depth : Nat) (segment rest : Source) :
    cutFrom (depth + 2) segment (c :: rest) = cutFrom (depth + 1) (c :: segment) rest := by
  simp [cutFrom, h]

theorem cutFrom_semicolon (h : c.code = ';') (segment rest : Source) :
    cutFrom 0 segment (c :: rest) = (c :: segment).reverse :: cutFrom 0 [] rest := by
  simp [cutFrom, h]

theorem cutFrom_other (hopen : c.code ≠ '\x7b') (hclose : c.code ≠ '\x7d')
    (hsemicolon : ¬ (c.code = ';' ∧ depth = 0)) (segment rest : Source) :
    cutFrom depth segment (c :: rest) = cutFrom depth (c :: segment) rest := by
  simp [cutFrom, hopen, hclose, hsemicolon]

end

/-- A character that ends a segment if it stands in no inner braces. -/
def isTerminator (c : SourceChar) : Bool :=
  c.code == '\x7d' || c.code == ';'

/-- A character that ends a segment is a plain one of the code. -/
theorem exists_shown_of_isTerminator {c : SourceChar} (h : isTerminator c = true) :
    ∃ d, c = shown d ∧ isPlain d = true ∧ Text.isBlank d = false := by
  rw [isTerminator, Bool.or_eq_true, beq_iff_eq, beq_iff_eq] at h
  rcases h with hcode | hcode
  · exact ⟨_, eq_shown_of_code hcode (by decide), by decide, by decide⟩
  · exact ⟨_, eq_shown_of_code hcode (by decide), by decide, by decide⟩

/-- The number of braces that are opened. -/
def opens (source : Source) : Nat :=
  source.codes.count '\x7b'

/-- The number of braces that are closed. -/
def closes (source : Source) : Nat :=
  source.codes.count '\x7d'

theorem opens_append (source more : Source) :
    opens (source ++ more) = opens source + opens more := by
  rw [opens, codes_append, List.count_append]
  rfl

theorem closes_append (source more : Source) :
    closes (source ++ more) = closes source + closes more := by
  rw [closes, codes_append, List.count_append]
  rfl

/-- What the search for segments has read when it is at a place: a part of
the body that ends the segments found, and in which the braces are
balanced. -/
structure Reached (depth : Nat) (segment part : Source) (segs : List Source) : Prop where
  flatten : segs.flatten = segment.reverse ++ part
  cuts : ∀ behind, cutFrom depth segment (part ++ behind) = segs ++ cutFrom 0 [] behind
  balanced : closes part = depth + opens part
  ended : ∃ front last, part = front ++ [last] ∧ isTerminator last = true

section

variable {depth next : Nat} {segment part : Source} {segs : List Source} {c : SourceChar}

theorem opens_cons (c : SourceChar) (source : Source) :
    opens (c :: source) = opens [c] + opens source :=
  opens_append [c] source

theorem closes_cons (c : SourceChar) (source : Source) :
    closes (c :: source) = closes [c] + closes source :=
  closes_append [c] source

/-- A character that ends no segment is read. -/
theorem Reached.cons (h : Reached next (c :: segment) part segs)
    (hstep : ∀ rest, cutFrom depth segment (c :: rest) = cutFrom next (c :: segment) rest)
    (hbraces : closes [c] + next = depth + opens [c]) :
    Reached depth segment (c :: part) segs where
  flatten := by rw [h.flatten, List.reverse_cons, List.append_assoc, List.singleton_append]
  cuts behind := by rw [List.cons_append, hstep, h.cuts]
  balanced := by
    rw [closes_cons, opens_cons, h.balanced]
    omega
  ended := by
    obtain ⟨front, last, rfl, hlast⟩ := h.ended
    exact ⟨c :: front, last, rfl, hlast⟩

/-- A character that ends the segment. -/
theorem Reached.single
    (hstep : ∀ rest, cutFrom depth segment (c :: rest)
        = (c :: segment).reverse :: cutFrom 0 [] rest)
    (hbraces : closes [c] = depth + opens [c]) (hc : isTerminator c = true) :
    Reached depth segment [c] [(c :: segment).reverse] where
  flatten := by simp
  cuts behind := hstep behind
  balanced := hbraces
  ended := ⟨[], c, rfl, hc⟩

/-- A character that ends the segment, in front of further segments. -/
theorem Reached.first (h : Reached 0 [] part segs)
    (hstep : ∀ rest, cutFrom depth segment (c :: rest)
        = (c :: segment).reverse :: cutFrom 0 [] rest)
    (hbraces : closes [c] = depth + opens [c]) :
    Reached depth segment (c :: part) ((c :: segment).reverse :: segs) where
  flatten := by simp [h.flatten]
  cuts behind := by rw [List.cons_append, hstep, h.cuts, List.cons_append]
  balanced := by
    rw [closes_cons, opens_cons, h.balanced]
    omega
  ended := by
    obtain ⟨front, last, rfl, hlast⟩ := h.ended
    exact ⟨c :: front, last, rfl, hlast⟩

/-- The segment in front of a character that ends it. -/
theorem exists_reached_first {rest : Source}
    (hstep : ∀ rest, cutFrom depth segment (c :: rest)
        = (c :: segment).reverse :: cutFrom 0 [] rest)
    (hbraces : closes [c] = depth + opens [c]) (hc : isTerminator c = true)
    (hrest : cutFrom 0 [] rest = [] ∨ ∃ part tail, rest = part ++ tail ∧ cutFrom 0 [] tail = [] ∧
      Reached 0 [] part (cutFrom 0 [] rest)) :
    ∃ part tail, c :: rest = part ++ tail ∧ cutFrom 0 [] tail = [] ∧
      Reached depth segment part ((c :: segment).reverse :: cutFrom 0 [] rest) := by
  rcases hrest with hnone | ⟨part, tail, rfl, htail, hreached⟩
  · rw [hnone]
    exact ⟨[c], rest, rfl, hnone, .single hstep hbraces hc⟩
  · exact ⟨c :: part, tail, rfl, htail, hreached.first hstep hbraces⟩

end

/-- The search for segments finds none, or reaches a place from which it
finds no more. -/
theorem exists_reached (depth : Nat) (segment body : Source) :
    cutFrom depth segment body = [] ∨ ∃ part tail, body = part ++ tail ∧ cutFrom 0 [] tail = [] ∧
      Reached depth segment part (cutFrom depth segment body) := by
  -- a character that is read belongs to the part in front of the place
  have read : ∀ {depth next : Nat} {segment rest : Source} {c : SourceChar},
      (∀ rest, cutFrom depth segment (c :: rest) = cutFrom next (c :: segment) rest) →
      closes [c] + next = depth + opens [c] →
      (cutFrom next (c :: segment) rest = [] ∨ ∃ part tail, rest = part ++ tail ∧
        cutFrom 0 [] tail = [] ∧
        Reached next (c :: segment) part (cutFrom next (c :: segment) rest)) →
      cutFrom next (c :: segment) rest = [] ∨ ∃ part tail, c :: rest = part ++ tail ∧
        cutFrom 0 [] tail = [] ∧ Reached depth segment part (cutFrom next (c :: segment) rest) := by
    rintro depth next segment rest c hstep hbraces (hnone | ⟨part, tail, rfl, htail, hreached⟩)
    · exact .inl hnone
    · exact .inr ⟨c :: part, tail, rfl, htail, hreached.cons hstep hbraces⟩
  fun_induction cutFrom depth segment body with
  | case1 => exact .inl rfl
  | case2 depth segment c rest hopen ih =>
    have hcode := beq_iff_eq.1 hopen
    refine read (cutFrom_open hcode depth segment) ?_ ih
    simp [opens, closes, hcode]
  | case3 => exact .inl rfl
  | case4 segment c rest hopen hclose ih =>
    have hcode := beq_iff_eq.1 hclose
    refine .inr (exists_reached_first (cutFrom_close_one hcode segment) ?_ ?_ ih)
    · simp [opens, closes, hcode]
    · simp [isTerminator, hcode]
  | case5 segment c rest hopen hclose depth hdepth ih =>
    have hcode := beq_iff_eq.1 hclose
    obtain ⟨depth, rfl⟩ := Nat.exists_eq_succ_of_ne_zero (n := depth) (by simpa using hdepth)
    refine read (cutFrom_close_add_two hcode depth segment) ?_ ih
    simp [opens, closes, hcode]
    omega
  | case6 depth segment c rest hopen hclose hsemicolon ih =>
    obtain ⟨hcode, rfl⟩ : c.code = ';' ∧ depth = 0 := by simpa using hsemicolon
    refine .inr (exists_reached_first (cutFrom_semicolon hcode segment) ?_ ?_ ih)
    · simp [opens, closes, hcode]
    · simp [isTerminator, hcode]
  | case7 depth segment c rest hopen hclose hsemicolon ih =>
    have hopen : c.code ≠ '\x7b' := by simpa using hopen
    have hclose : c.code ≠ '\x7d' := by simpa using hclose
    refine read (cutFrom_other hopen hclose (by simpa using hsemicolon) segment) ?_ ih
    simp [opens, closes, hopen, hclose]

/-- **The segments of a body make up a part of it that is cut into them**,
whatever follows. The braces in it are balanced, it ends with the last
segment, and no segment is found behind it. -/
theorem exists_cuts (body : Source) :
    ∃ part tail, body = part ++ tail ∧ (cutFrom 0 [] body).flatten = part ∧
      Cuts part (cutFrom 0 [] body) ∧ cutFrom 0 [] tail = [] ∧ closes part = opens part ∧
      ∀ last, part.getLast? = some last → isTerminator last = true := by
  rcases exists_reached 0 [] body with hnone | ⟨part, tail, hbody, htail, hreached⟩
  · rw [hnone]
    exact ⟨[], body, rfl, rfl, cuts_nil, hnone, rfl, by simp⟩
  · refine ⟨part, tail, hbody, hreached.flatten, hreached.cuts, htail, ?_, ?_⟩
    · rw [hreached.balanced, Nat.zero_add]
    · obtain ⟨front, last, rfl, hlast⟩ := hreached.ended
      rw [List.getLast?_concat]
      rintro _ ⟨⟩
      exact hlast

/-! ## Blanks in front -/

section

variable {blanks part rest : Source} {segs others : List Source}

/-- What has been read of a segment stands in front of it. -/
theorem cutFrom_append_segment (depth : Nat) (segment front source : Source) :
    cutFrom depth (segment ++ front) source
      = (cutFrom depth segment source).modifyHead (front.reverse ++ ·) := by
  fun_induction cutFrom depth segment source with
  | case1 => rfl
  | case2 depth segment c rest hopen ih =>
    rw [cutFrom_open (beq_iff_eq.1 hopen), ← ih]
    rfl
  | case3 segment c rest hopen hclose =>
    rw [cutFrom_close_zero (beq_iff_eq.1 hclose)]
    rfl
  | case4 segment c rest hopen hclose ih =>
    rw [cutFrom_close_one (beq_iff_eq.1 hclose), List.modifyHead_cons, ← List.cons_append,
      List.reverse_append]
  | case5 segment c rest hopen hclose depth hdepth ih =>
    obtain ⟨depth, rfl⟩ := Nat.exists_eq_succ_of_ne_zero (n := depth) (by simpa using hdepth)
    rw [cutFrom_close_add_two (beq_iff_eq.1 hclose), ← ih]
    rfl
  | case6 depth segment c rest hopen hclose hsemicolon ih =>
    obtain ⟨hcode, rfl⟩ : c.code = ';' ∧ depth = 0 := by simpa using hsemicolon
    rw [cutFrom_semicolon hcode, List.modifyHead_cons, ← List.cons_append, List.reverse_append]
  | case7 depth segment c rest hopen hclose hsemicolon ih =>
    rw [cutFrom_other (by simpa using hopen) (by simpa using hclose)
      (by simpa using hsemicolon), ← ih]
    rfl

/-- Blanks end no segment. -/
theorem cutFrom_blanks (h : ∀ c ∈ blanks, Text.isBlank c.code = true) (segment rest : Source) :
    cutFrom 0 segment (blanks ++ rest) = cutFrom 0 (blanks.reverse ++ segment) rest := by
  induction blanks generalizing segment with
  | nil => rfl
  | cons c blanks ih =>
    have hne : ∀ d, Text.isBlank d = false → c.code ≠ d := by
      rintro d hd rfl
      exact absurd (h c List.mem_cons_self) (by simp [hd])
    rw [List.cons_append, cutFrom_other (hne _ (by decide)) (hne _ (by decide))
        (fun hcode => hne ';' (by decide) hcode.1),
      ih fun d hd => h d (List.mem_cons_of_mem c hd), List.reverse_cons, List.append_assoc]
    rfl

/-- **Blanks in front of a part** belong to the first segment of it. -/
theorem Cuts.lead (h : Cuts part segs) (hne : segs ≠ [])
    (hblanks : ∀ c ∈ blanks, Text.isBlank c.code = true) :
    Cuts (blanks ++ part) (segs.modifyHead (blanks ++ ·)) := by
  intro behind
  obtain ⟨first, more, rfl⟩ := List.exists_cons_of_ne_nil hne
  rw [List.append_assoc, cutFrom_blanks hblanks, ← List.nil_append (blanks.reverse ++ []),
    List.append_nil, cutFrom_append_segment, h, List.reverse_reverse]
  rfl

/-! ## Semicolons that stand alone -/

theorem endsWithBrace_concat (segment : Source) (c : SourceChar) :
    endsWithBrace (segment ++ [c]) = (c.code == '\x7d') := by
  rw [endsWithBrace, codes_append]
  show ((codes segment ++ [c.code]).getLast? == some '\x7d') = _
  rw [List.getLast?_concat]
  rfl

theorem endsWithBrace_blanks_append (hblanks : ∀ c ∈ blanks, Text.isBlank c.code = true)
    (segment : Source) : endsWithBrace (blanks ++ segment) = endsWithBrace segment := by
  rw [endsWithBrace, endsWithBrace, codes_append, List.getLast?_append]
  cases hlast : (codes segment).getLast? with
  | some c => rfl
  | none =>
    cases hblank : (codes blanks).getLast? with
    | none => rfl
    | some c =>
      obtain ⟨d, hd, rfl⟩ := List.mem_map.1 (List.mem_of_getLast? hblank)
      have hne : d.code ≠ '\x7d' := by
        intro hcode
        have hdblank := hblanks d hd
        rw [hcode] at hdblank
        exact absurd hdblank (by decide)
      simpa using hne

/-- Blanks in front of the first segment stay there. -/
theorem joinSemicolons_lead (hblanks : ∀ c ∈ blanks, Text.isBlank c.code = true)
    (segs : List Source) :
    joinSemicolons (segs.modifyHead (blanks ++ ·))
      = (joinSemicolons segs).modifyHead (blanks ++ ·) := by
  match segs with
  | [] => rfl
  | [segment] => rfl
  | first :: second :: rest =>
    rw [List.modifyHead_cons, joinSemicolons, joinSemicolons, endsWithBrace_blanks_append hblanks]
    split
    · rw [List.append_assoc]
      rfl
    · rfl

/-- **Semicolons are joined part by part**, unless a part begins with one
that stands alone. -/
theorem joinSemicolons_append (h : ∀ first ∈ others.head?, trimmedCodes first ≠ [';'])
    (segs : List Source) :
    joinSemicolons (segs ++ others) = joinSemicolons segs ++ joinSemicolons others := by
  fun_induction joinSemicolons segs with
  | case1 first second rest hjoin ih =>
    rw [List.cons_append, List.cons_append, joinSemicolons, if_pos hjoin, ih]
    rfl
  | case2 first second rest hjoin ih =>
    rw [List.cons_append, List.cons_append, joinSemicolons, if_neg hjoin, ← List.cons_append, ih]
    rfl
  | case3 segs hsegs =>
    match segs with
    | [] => rfl
    | [segment] =>
      cases others with
      | nil => rfl
      | cons other others =>
        have hother : (trimmedCodes other == [';']) = false := by simpa using h other rfl
        rw [List.singleton_append, joinSemicolons, hother, Bool.and_false, if_neg (by simp)]
        rfl
    | first :: second :: rest => exact absurd rfl (hsegs first second rest)

/-- A segment that is joined with no other begins as the part does. -/
theorem joinSemicolons_eq_singleton {segment : Source} (h : joinSemicolons segs = [segment]) :
    segs = [segment] ∨ ∃ first second, segs = [first, second] ∧ endsWithBrace first = true ∧
      segment = first ++ second := by
  match segs with
  | [] => exact absurd h (by simp [joinSemicolons])
  | [only] => exact .inl h
  | first :: second :: rest =>
    have hne : ∀ {s : Source} {all : List Source}, joinSemicolons (s :: all) ≠ [] := by
      intro s all
      match all with
      | [] => simp [joinSemicolons]
      | t :: all =>
        rw [joinSemicolons]
        split <;> simp
    rw [joinSemicolons] at h
    split at h
    next hjoin =>
      obtain ⟨hsegment, hrest⟩ := List.cons.inj h
      cases rest with
      | nil => exact .inr ⟨first, second, rfl, (Bool.and_eq_true_iff.1 hjoin).1, hsegment.symm⟩
      | cons third rest => exact absurd hrest hne
    · exact absurd (List.cons.inj h).2 hne

end

/-- Every segment holds a character that ends it. -/
theorem exists_isTerminator {depth : Nat} {segment source found : Source}
    (h : found ∈ cutFrom depth segment source) : ∃ c ∈ found, isTerminator c = true := by
  fun_induction cutFrom depth segment source with
  | case1 => exact absurd h List.not_mem_nil
  | case2 depth segment c rest hopen ih => exact ih h
  | case3 => exact absurd h List.not_mem_nil
  | case4 segment c rest hopen hclose ih =>
    rcases List.mem_cons.1 h with rfl | h
    · exact ⟨c, by simp, by simp [isTerminator, hclose]⟩
    · exact ih h
  | case5 segment c rest hopen hclose depth hdepth ih => exact ih h
  | case6 depth segment c rest hopen hclose hsemicolon ih =>
    rcases List.mem_cons.1 h with rfl | h
    · exact ⟨c, by simp, by simp [isTerminator, (Bool.and_eq_true_iff.1 hsemicolon).1]⟩
    · exact ih h
  | case7 depth segment c rest hopen hclose hsemicolon ih => exact ih h

/-- Segments that have been joined hold what one of them held. -/
theorem exists_subset_of_mem_joinSemicolons {segs : List Source} {found : Source}
    (h : found ∈ joinSemicolons segs) : ∃ segment ∈ segs, segment ⊆ found := by
  fun_induction joinSemicolons segs with
  | case1 first second rest hjoin ih =>
    rcases List.mem_cons.1 h with rfl | h
    · exact ⟨first, List.mem_cons_self, List.subset_append_left _ _⟩
    · obtain ⟨segment, hmem, hsubset⟩ := ih h
      exact ⟨segment, List.mem_cons_of_mem _ (List.mem_cons_of_mem _ hmem), hsubset⟩
  | case2 first second rest hjoin ih =>
    rcases List.mem_cons.1 h with rfl | h
    · exact ⟨found, List.mem_cons_self, List.Subset.refl _⟩
    · obtain ⟨segment, hmem, hsubset⟩ := ih h
      exact ⟨segment, List.mem_cons_of_mem _ hmem, hsubset⟩
  | case3 segs hsegs => exact ⟨found, h, List.Subset.refl _⟩

end TableMapper.Source
