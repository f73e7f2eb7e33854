import TableMapper.Proofs.Merge.Members

/-!
# Braces that are closed where they are opened

How many braces are open behind a part of a file depends on how many are
open in front of it, and on nothing else (`depthAfter_append`). In a part
that is **nested** (`Nested`) every brace is closed that is opened, and no
other one. So the brace that closes a type body is found behind the nested
part in front of it, and there is only one such place
(`Nested.append_cons_inj`). Behind it no member is read
(`ofBody_append_close`), and **the members that are read are nested
themselves** (`whole_of_mem_ofBody`).
-/

namespace TableMapper

namespace Source

/-- The number of braces that are open behind a part, given the number in
front of it. There is none if more are closed than are open. -/
def depthAfter (depth : Nat) : Source → Option Nat
  | [] => some depth
  | c :: rest =>
    if c.code == '\x7b' then depthAfter (depth + 1) rest
    else if c.code == '\x7d' then
      match depth with
      | 0 => none
      | depth + 1 => depthAfter depth rest
    else depthAfter depth rest

/-- **The braces of a part are closed in it.** -/
def Nested (part : Source) : Prop :=
  depthAfter 0 part = some 0

instance (part : Source) : Decidable (Nested part) :=
  inferInstanceAs (Decidable (depthAfter 0 part = some 0))

section

variable {depth behind more left : Nat} {c d close : SourceChar}
  {part other rest source front inner blanks : Source}

/-! ## One character -/

theorem depthAfter_open (h : c.code = '\x7b') (depth : Nat) (rest : Source) :
    depthAfter depth (c :: rest) = depthAfter (depth + 1) rest := by
  simp [depthAfter, h]

theorem depthAfter_close_zero (h : c.code = '\x7d') (rest : Source) :
    depthAfter 0 (c :: rest) = none := by
  simp [depthAfter, h]

theorem depthAfter_close_succ (h : c.code = '\x7d') (depth : Nat) (rest : Source) :
    depthAfter (depth + 1) (c :: rest) = depthAfter depth rest := by
  simp [depthAfter, h]

theorem depthAfter_other (hopen : c.code ≠ '\x7b') (hclose : c.code ≠ '\x7d') (depth : Nat)
    (rest : Source) : depthAfter depth (c :: rest) = depthAfter depth rest := by
  simp [depthAfter, hopen, hclose]

/-! ## Parts of a file -/

theorem depthAfter_append (depth : Nat) (part rest : Source) :
    depthAfter depth (part ++ rest) = (depthAfter depth part).bind fun depth =>
  depthAfter depth rest := by
  fun_induction depthAfter depth part with
  | case1 => rfl
  | case2 depth c part hopen ih =>
    rw [List.cons_append, depthAfter_open (beq_iff_eq.1 hopen), ih]
  | case3 c part hopen hclose =>
    rw [List.cons_append, depthAfter_close_zero (beq_iff_eq.1 hclose)]
    rfl
  | case4 c part hopen hclose depth ih =>
    rw [List.cons_append, depthAfter_close_succ (beq_iff_eq.1 hclose), ih]
  | case5 depth c part hopen hclose ih =>
    rw [List.cons_append, depthAfter_other (by simpa using hopen) (by simpa using hclose), ih]

theorem nested_nil : Nested [] := rfl

theorem Nested.append (h : Nested part) (hother : Nested other) : Nested (part ++ other) := by
  rw [Nested, depthAfter_append, h, Option.bind_some]
  exact hother

/-- What has no braces is nested. -/
theorem nested_of_forall (h : ∀ c ∈ part, c.code ≠ '\x7b' ∧ c.code ≠ '\x7d') : Nested part := by
  induction part with
  | nil => exact nested_nil
  | cons c part ih =>
    obtain ⟨hopen, hclose⟩ := h c List.mem_cons_self
    rw [Nested, depthAfter_other hopen hclose]
    exact ih fun d hd => h d (List.mem_cons_of_mem c hd)

theorem nested_of_blank (h : ∀ c ∈ part, Text.isBlank c.code = true) : Nested part := by
  refine nested_of_forall fun c hc => ⟨fun hcode => ?_, fun hcode => ?_⟩
  all_goals
    have hblank := h c hc
    rw [hcode] at hblank
    exact absurd hblank (by decide)

/-- Only the code counts for the braces. -/
theorem nested_of_codes (h : codes part = codes rest) (hpart : Nested part) : Nested rest := by
  have hall : ∀ depth, depthAfter depth part = depthAfter depth rest := by
    clear hpart
    induction part generalizing rest with
    | nil => simp [List.map_eq_nil_iff.1 h.symm]
    | cons c part ih =>
      obtain ⟨d, rest, rfl, hcode, hrest⟩ := List.map_eq_cons_iff.1 h.symm
      intro depth
      simp only [depthAfter, hcode, ih hrest.symm]
  rwa [Nested, ← hall]

/-! ## Where a brace is closed -/

/-- **A brace that is open in front of a part and not behind it is closed in
it**, behind a nested part. -/
theorem exists_close (h : depthAfter (depth + 1 + more) source = some behind)
    (hle : behind ≤ depth) :
    ∃ part close rest, source = part ++ close :: rest ∧ close.code = '\x7d' ∧
      depthAfter more part = some 0 := by
  -- `more` counts the braces that are opened in the part and still open
  induction source generalizing more with
  | nil =>
    have := Option.some.inj h
    omega
  | cons c source ih =>
    by_cases hopen : c.code = '\x7b'
    · replace h : depthAfter (depth + 1 + (more + 1)) source = some behind := by
        rwa [depthAfter_open hopen] at h
      obtain ⟨part, close, rest, rfl, hclose, hpart⟩ := ih h
      exact ⟨c :: part, close, rest, rfl, hclose, by rw [depthAfter_open hopen, hpart]⟩
    · by_cases hclose : c.code = '\x7d'
      · cases more with
        | zero => exact ⟨[], c, source, rfl, hclose, rfl⟩
        | succ more =>
          rw [← Nat.add_assoc, depthAfter_close_succ hclose] at h
          obtain ⟨part, close, rest, rfl, hcode, hpart⟩ := ih h
          exact ⟨c :: part, close, rest, rfl, hcode, by rw [depthAfter_close_succ hclose, hpart]⟩
      · rw [depthAfter_other hopen hclose] at h
        obtain ⟨part, close, rest, rfl, hcode, hpart⟩ := ih h
        exact ⟨c :: part, close, rest, rfl, hcode, by rw [depthAfter_other hopen hclose, hpart]⟩

/-- Where one brace too many is closed. -/
theorem exists_close_of_none (h : depthAfter depth source = none) :
    ∃ part close rest, source = part ++ close :: rest ∧ close.code = '\x7d' ∧
      depthAfter depth part = some 0 := by
  fun_induction depthAfter depth source with
  | case1 => exact absurd h (by simp)
  | case2 depth c source hopen ih =>
    obtain ⟨part, close, rest, rfl, hclose, hpart⟩ := ih h
    exact ⟨c :: part, close, rest, rfl, hclose, by rw [depthAfter_open (beq_iff_eq.1 hopen), hpart]⟩
  | case3 c source hopen hclose => exact ⟨[], c, source, rfl, beq_iff_eq.1 hclose, rfl⟩
  | case4 c source hopen hclose depth ih =>
    obtain ⟨part, close, rest, rfl, hcode, hpart⟩ := ih h
    exact ⟨c :: part, close, rest, rfl,
      hcode, by rw [depthAfter_close_succ (beq_iff_eq.1 hclose), hpart]⟩
  | case5 depth c source hopen hclose ih =>
    obtain ⟨part, close, rest, rfl, hcode, hpart⟩ := ih h
    refine ⟨c :: part, close, rest, rfl, hcode, ?_⟩
    rw [depthAfter_other (by simpa using hopen) (by simpa using hclose), hpart]

/-- **The brace that closes a nested part stands at one place only.** -/
theorem Nested.append_cons_inj (h : Nested part) (hother : Nested other) (hc : c.code = '\x7d')
    (hd : d.code = '\x7d') {behind more : Source} (heq : part ++ c :: behind = other ++ d :: more) :
    part = other ∧ behind = more := by
  -- neither part can go on behind the brace of the other one
  have hlonger : ∀ {front between : Source} {e : SourceChar}, Nested front → e.code = '\x7d' →
      ¬ Nested (front ++ e :: between) := by
    intro front between e hfront he hnested
    rw [Nested, depthAfter_append, hfront, Option.bind_some, depthAfter_close_zero he] at hnested
    exact absurd hnested (by simp)
  rcases List.append_eq_append_iff.1 heq with ⟨between, hpart, hrest⟩ | ⟨between, hpart, hrest⟩
  · cases between with
    | nil => exact ⟨by simpa using hpart.symm, (List.cons.inj hrest).2⟩
    | cons e between =>
      obtain ⟨rfl, -⟩ := List.cons.inj hrest
      exact absurd (hpart ▸ hother) (hlonger h hc)
  · cases between with
    | nil => exact ⟨by simpa using hpart, (List.cons.inj hrest).2.symm⟩
    | cons e between =>
      obtain ⟨rfl, -⟩ := List.cons.inj hrest
      exact absurd (hpart ▸ h) (hlonger hother hd)

/-! ## Segments -/

/-- **What one character does to the search for segments**: it goes on to the
segment, ends it, or is the brace that closes the body. -/
theorem cutFrom_cases (c : SourceChar) (depth : Nat) :
    (∃ next, (∀ rest, depthAfter depth (c :: rest) = depthAfter next rest) ∧
      ∀ segment rest, cutFrom depth segment (c :: rest) = cutFrom next (c :: segment) rest) ∨
    (isTerminator c = true ∧ (∀ rest, depthAfter depth (c :: rest) = depthAfter 0 rest) ∧
      ∀ segment rest, cutFrom depth segment (c :: rest)
        = (c :: segment).reverse :: cutFrom 0 [] rest) ∨
    (c.code = '\x7d' ∧ depth = 0) := by
  by_cases hopen : c.code = '\x7b'
  · exact .inl ⟨depth + 1, depthAfter_open hopen depth, cutFrom_open hopen depth⟩
  by_cases hclose : c.code = '\x7d'
  · match depth with
    | 0 => exact .inr (.inr ⟨hclose, rfl⟩)
    | 1 =>
      exact .inr (.inl ⟨by simp [isTerminator, hclose], depthAfter_close_succ hclose 0,
        cutFrom_close_one hclose⟩)
    | depth + 2 =>
      exact .inl ⟨depth + 1, depthAfter_close_succ hclose _, cutFrom_close_add_two hclose depth⟩
  by_cases hsemicolon : c.code = ';' ∧ depth = 0
  · obtain ⟨hcode, rfl⟩ := hsemicolon
    exact .inr (.inl ⟨by simp [isTerminator, hcode], depthAfter_other hopen hclose 0,
      cutFrom_semicolon hcode⟩)
  · exact .inl ⟨depth, depthAfter_other hopen hclose depth, cutFrom_other hopen hclose hsemicolon⟩

/-- **The segments of a part do not depend on what follows it**, and those
that follow depend only on what is open. -/
theorem exists_cutFrom_append (h : depthAfter depth part = some behind) (segment : Source) :
    ∃ begun, ∀ rest, cutFrom depth segment (part ++ rest)
      = cutFrom depth segment part ++ cutFrom behind begun rest := by
  induction part generalizing depth segment with
  | nil => exact ⟨segment, fun rest => by rw [Option.some.inj h]; rfl⟩
  | cons c part ih =>
    rcases cutFrom_cases c depth with ⟨next, hdepth, hcut⟩ | ⟨-, hdepth, hcut⟩ | ⟨hclose, rfl⟩
    · obtain ⟨begun, hbehind⟩ := ih (hdepth part ▸ h) (c :: segment)
      exact ⟨begun, fun rest => by rw [List.cons_append, hcut, hcut, hbehind]⟩
    · obtain ⟨begun, hbehind⟩ := ih (hdepth part ▸ h) []
      exact ⟨begun, fun rest => by rw [List.cons_append, hcut, hcut, hbehind, List.cons_append]⟩
    · rw [depthAfter_close_zero hclose] at h
      exact absurd h (by simp)

/-- **A part that is cut into segments, whatever follows, is nested.** -/
theorem Cuts.nested {segs : List Source} (h : Cuts part segs) : Nested part := by
  have hall : cutFrom 0 [] part = segs := by simpa [cutFrom] using h []
  have hsemicolon : cutFrom 0 [] (part ++ [shown ';']) = segs ++ [[shown ';']] := h [shown ';']
  cases hdepth : depthAfter 0 part with
  | none =>
    -- the search ends where a brace too many is closed, so no semicolon is found
    obtain ⟨front, close, rest, rfl, hclose, hfront⟩ := exists_close_of_none hdepth
    obtain ⟨begun, hcut⟩ := exists_cutFrom_append hfront []
    rw [List.append_assoc, List.cons_append, hcut, cutFrom_close_zero hclose, ← hall, hcut,
      cutFrom_close_zero hclose] at hsemicolon
    simp at hsemicolon
  | some depth =>
    cases depth with
    | zero => exact hdepth
    | succ depth =>
      obtain ⟨begun, hcut⟩ := exists_cutFrom_append hdepth []
      rw [hcut, hall] at hsemicolon
      simp [cutFrom, shown, SourceChar.code] at hsemicolon

/-- **Behind the brace that closes a body no member is read.** -/
theorem ofBody_append_close (h : Nested part) (hc : c.code = '\x7d') (rest : Source) :
    Member.ofBody (part ++ c :: rest) = Member.ofBody part := by
  obtain ⟨begun, hcut⟩ := exists_cutFrom_append h []
  rw [Member.ofBody, Member.ofBody, segments, segments, hcut,
    cutFrom_close_zero hc, List.append_nil]

/-! ## One segment -/

/-- Blanks are neither braces nor semicolons. -/
theorem braceless_of_blank {cs : List Char} (h : Text.Blank cs) :
    ∀ c ∈ cs, c ∉ "\x7b\x7d;".toList := by
  intro c hc hmem
  have hblank := h c hc
  rw [(by decide : ∀ d ∈ "\x7b\x7d;".toList, Text.isBlank d = false) c hmem] at hblank
  exact Bool.noConfusion hblank

/-- What has no braces and semicolons goes on with a segment. -/
theorem cutFrom_plain (h : ∀ c ∈ part, c.code ∉ "\x7b\x7d;".toList) (segment rest : Source) :
    cutFrom 0 segment (part ++ rest) = cutFrom 0 (part.reverse ++ segment) rest := by
  induction part generalizing segment with
  | nil => rfl
  | cons c part ih =>
    obtain ⟨hc, hpart⟩ := List.forall_mem_cons.1 h
    have hne : ∀ d ∈ "\x7b\x7d;".toList, c.code ≠ d := fun d hd heq => hc (heq ▸ hd)
    rw [List.cons_append, cutFrom_other (hne _ (by decide)) (hne _ (by decide))
      (fun hcode => hne ';' (by decide) hcode.1), ih hpart, List.reverse_cons, List.append_assoc]
    rfl

/-- What stands in braces goes on with a segment. -/
theorem cutFrom_inner (h : depthAfter depth inner = some left) (segment rest : Source) :
    cutFrom (depth + 1) segment (inner ++ rest)
      = cutFrom (left + 1) (inner.reverse ++ segment) rest := by
  fun_induction depthAfter depth inner generalizing segment with
  | case1 =>
    obtain rfl := Option.some.inj h
    rfl
  | case2 depth c inner hopen ih =>
    rw [List.cons_append, cutFrom_open (beq_iff_eq.1 hopen), ih h,
      List.reverse_cons, List.append_assoc]
    rfl
  | case3 => exact absurd h (by simp)
  | case4 c inner hopen hclose depth ih =>
    rw [List.cons_append, cutFrom_close_add_two (beq_iff_eq.1 hclose), ih h,
      List.reverse_cons, List.append_assoc]
    rfl
  | case5 depth c inner hopen hclose ih =>
    rw [List.cons_append, cutFrom_other (by simpa using hopen) (by simpa using hclose) (by simp),
      ih h, List.reverse_cons, List.append_assoc]
    rfl

/-- A part that ends with its only semicolon is a segment. -/
theorem cuts_semicolon (h : ∀ c ∈ front, c.code ∉ "\x7b\x7d;".toList) (hc : c.code = ';') :
    Cuts (front ++ [c]) [front ++ [c]] := by
  intro behind
  rw [List.append_assoc, cutFrom_plain h, List.singleton_append, cutFrom_semicolon hc]
  simp

/-- So is one that ends with its only block. -/
theorem cuts_block (h : ∀ c ∈ front, c.code ∉ "\x7b\x7d;".toList) (hc : c.code = '\x7b')
    (hinner : Nested inner)
    (hclose : close.code = '\x7d') :
    Cuts (front ++ c :: (inner ++ [close])) [front ++ c :: (inner ++ [close])] := by
  intro behind
  have hcut : front ++ c :: (inner ++ [close]) ++ behind
      = front ++ c :: (inner ++ close :: behind) := by simp
  rw [hcut, cutFrom_plain h, cutFrom_open hc, cutFrom_inner hinner, cutFrom_close_one hclose]
  simp

/-- A semicolon behind a block belongs to the segment of the block. -/
theorem joinSemicolons_semicolon (hbrace : endsWithBrace part = true)
    (hblanks : Text.Blank (codes blanks))
    (hc : c.code = ';') (segs : List Source) :
    joinSemicolons (part :: (blanks ++ [c]) :: segs)
      = (part ++ (blanks ++ [c])) :: joinSemicolons segs := by
  have hsemicolon : trimmedCodes (blanks ++ [c]) = [';'] := by
    rw [trimmedCodes, codes_append, Text.trim_blanks_append hblanks, codes_cons, hc]
    decide
  rw [joinSemicolons, hbrace, hsemicolon, if_pos (by decide)]

/-- **Code of which the only semicolon stands at the end is one segment.** -/
theorem exists_cuts_of_semicolon {cs : List Char} (hcs : ∀ c ∈ cs, c ∉ "\x7b\x7d;".toList)
    (h : codes part = cs ++ [';']) : ∃ segs, Cuts part segs ∧ joinSemicolons segs = [part] := by
  obtain ⟨front, last, rfl, hfront, hlast⟩ := List.map_eq_append_iff.1 h
  obtain ⟨semicolon, rfl, hsemicolon⟩ := List.map_eq_singleton_iff.1 hlast
  exact ⟨_, cuts_semicolon (fun c hc => hcs c.code (hfront ▸ List.mem_map_of_mem hc))
    hsemicolon, rfl⟩

/-- **So is code with one block**, behind which at most a semicolon stands. -/
theorem exists_cuts_of_block {cs ds behind : List Char} (hcs : ∀ c ∈ cs, c ∉ "\x7b\x7d;".toList)
    (hds : Nested (ds.map shown))
    (hbehind : behind = [] ∨ ∃ gap, Text.Blank gap ∧ behind = gap ++ [';'])
    (h : codes part = cs ++ '\x7b' :: (ds ++ '\x7d' :: behind)) :
    ∃ segs, Cuts part segs ∧ joinSemicolons segs = [part] := by
  obtain ⟨front, block, rfl, hfront, hblock⟩ := List.map_eq_append_iff.1 h
  obtain ⟨brace, block, rfl, hbrace, hblock⟩ := List.map_eq_cons_iff.1 hblock
  obtain ⟨inner, block, rfl, hinner, hblock⟩ := List.map_eq_append_iff.1 hblock
  obtain ⟨close, after, rfl, hclose, hafter⟩ := List.map_eq_cons_iff.1 hblock
  have hnested : Nested inner := nested_of_codes (by rw [codes_map_shown]; exact hinner.symm) hds
  have hcuts := cuts_block (fun c hc => hcs c.code (hfront ▸ List.mem_map_of_mem hc)) hbrace
    hnested hclose
  rcases hbehind with rfl | ⟨gap, hgap, rfl⟩
  · obtain rfl := List.map_eq_nil_iff.1 hafter
    exact ⟨_, hcuts, rfl⟩
  · obtain ⟨blanks, last, rfl, hblanks, hlast⟩ := List.map_eq_append_iff.1 hafter
    obtain ⟨semicolon, rfl, hsemicolon⟩ := List.map_eq_singleton_iff.1 hlast
    have hcut : front ++ brace :: (inner ++ close :: (blanks ++ [semicolon]))
        = (front ++ brace :: (inner ++ [close])) ++ (blanks ++ [semicolon]) := by simp
    have hends : endsWithBrace (front ++ brace :: (inner ++ [close])) = true := by
      rw [← List.cons_append, ← List.append_assoc, endsWithBrace_concat, hclose]
      rfl
    have hgap : Text.Blank (codes blanks) := by rwa [codes, hblanks]
    have hown := cuts_semicolon
      (fun c hc => braceless_of_blank hgap c.code (List.mem_map_of_mem hc)) hsemicolon
    rw [hcut]
    exact ⟨_, hcuts.append hown, joinSemicolons_semicolon hends hgap hsemicolon []⟩

end

/-! ## Texts in which everything is closed -/

/-- **A text in which comments, literals and braces are closed.** -/
structure Whole (cs : List Char) : Prop where
  settled : Settled cs
  nested : Nested (markFrom .code cs)

section

variable {cs ds : List Char} {part segment source : Source} {segs : List Source} {member : Member}

theorem whole_nil : Whole [] := ⟨settled_nil, nested_nil⟩

theorem Whole.append (h : Whole cs) (hds : Whole ds) : Whole (cs ++ ds) := by
  refine ⟨h.settled.append hds.settled, ?_⟩
  rw [h.settled]
  exact h.nested.append hds.nested

theorem Silent.whole (h : Silent cs) : Whole cs :=
  ⟨h.settled, nested_of_blank h.blank⟩

theorem whole_of_blank (h : Text.Blank cs) : Whole cs :=
  (silent_of_blank h).whole

theorem whole_of_forall (h : ∀ c ∈ cs, isInert c = true ∧ c ≠ '\x7b' ∧ c ≠ '\x7d') : Whole cs := by
  have hinert : ∀ c ∈ cs, isInert c = true := fun c hc => (h c hc).1
  refine ⟨settled_of_inert hinert, ?_⟩
  rw [markFrom_of_inert hinert]
  refine nested_of_forall fun c hc => ?_
  obtain ⟨d, hd, rfl⟩ := List.mem_map.1 hc
  exact (h d hd).2

theorem Holds.whole (h : Holds cs member) : Whole cs := by
  obtain ⟨part, blanks, segs, hmark, hblanks, hcuts, -⟩ := h.exists_part
  refine ⟨h.settled, ?_⟩
  rw [hmark]
  exact hcuts.nested.append (nested_of_blank (isBlank_code_of_blank hblanks))

/-- Blanks in front of a whole text can be left out. -/
theorem Whole.of_blanks_append (hcs : Text.Blank cs) (h : Whole (cs ++ ds)) : Whole ds := by
  have hmark := markFrom_blank hcs ds
  refine ⟨fun behind => ?_, ?_⟩
  · have hall := h.settled behind
    rw [hmark, List.append_assoc, markFrom_blank hcs, List.append_assoc] at hall
    exact List.append_cancel_left hall
  · have hnested := h.nested
    rw [hmark, Nested, depthAfter_append, nested_of_blank (isBlank_code_of_blank hcs)] at hnested
    exact hnested

/-! ## The members that are read -/

/-- A part that is marked by itself as it is in the file, with everything
closed in it and no blank at the end. -/
structure IsPart (part : Source) : Prop where
  marked : markFrom .code part.chars = part
  whole : Whole part.chars
  ended : ∃ front last, part = front ++ [last] ∧ isTerminator last = true

theorem IsPart.append {more : Source} (h : IsPart part) (hmore : IsPart more) :
    IsPart (part ++ more) where
  marked := by rw [chars_append, h.whole.settled, h.marked, hmore.marked]
  whole := by
    rw [chars_append]
    exact h.whole.append hmore.whole
  ended := by
    obtain ⟨front, last, rfl, hlast⟩ := hmore.ended
    exact ⟨part ++ front, last, by rw [List.append_assoc], hlast⟩

/-- **The first segment and what follows it.** -/
theorem exists_of_cutFrom_eq_cons {depth : Nat} {body : Source}
    (h : cutFrom depth segment body = source :: segs) :
    ∃ part rest, body = part ++ rest ∧ source = segment.reverse ++ part ∧ cutFrom 0 [] rest = segs ∧
      depthAfter depth part = some 0 ∧ ∃ front last, part = front ++ [last] ∧
      isTerminator last = true := by
  induction body generalizing depth segment with
  | nil => exact absurd h (by simp [cutFrom])
  | cons c body ih =>
    rcases cutFrom_cases c depth with ⟨next, hdepth, hcut⟩ | ⟨hc, hdepth, hcut⟩ | ⟨hclose, rfl⟩
    · rw [hcut] at h
      obtain ⟨part, rest, rfl, hsource, hrest, hpart, front, last, rfl, hlast⟩ := ih h
      refine ⟨c :: (front ++ [last]), rest, rfl, ?_, hrest, by rw [hdepth, hpart],
        c :: front, last, rfl, hlast⟩
      rw [hsource, List.reverse_cons, List.append_assoc]
      rfl
    · rw [hcut] at h
      obtain ⟨hsource, hrest⟩ := List.cons.inj h
      exact ⟨[c], body, rfl, by rw [← hsource, List.reverse_cons],
        hrest, by rw [hdepth]; rfl, [], c, rfl, hc⟩
    · rw [cutFrom_close_zero hclose] at h
      exact absurd h (by simp)

/-- **Every segment is a part by itself.** -/
theorem isPart_of_mem_cutFrom (hsegment : segment ∈ cutFrom 0 [] (markFrom .code cs)) :
    IsPart segment := by
  generalize hsegs : cutFrom 0 [] (markFrom .code cs) = segs at hsegment
  induction segs generalizing cs with
  | nil => exact absurd hsegment List.not_mem_nil
  | cons first segs ih =>
    obtain ⟨part, rest, hbody, hfirst, hrest, hpart, front, last, rfl, hlast⟩ :=
      exists_of_cutFrom_eq_cons hsegs
    obtain ⟨c, rfl, hc, -⟩ := exists_shown_of_isTerminator hlast
    obtain rfl : first = front ++ [shown c] := hfirst
    have hmarked : markFrom .code cs = front ++ shown c :: rest := by
      rw [hbody, List.append_assoc]
      rfl
    obtain ⟨hsettled, hown⟩ := settled_of_shown hmarked hc
    rcases List.mem_cons.1 hsegment with rfl | hsegment
    · have hchars : chars (front ++ [shown c]) = chars front ++ [c] := chars_append front [shown c]
      refine ⟨by rw [hchars, hown], ⟨by rwa [hchars], ?_⟩, front, shown c, rfl, hlast⟩
      rw [hchars, hown]
      exact hpart
    · exact ih (by rw [markFrom_behind hmarked hc, hrest]) hsegment

theorem isPart_of_mem_joinSemicolons (h : ∀ segment ∈ segs, IsPart segment)
    (hpart : part ∈ joinSemicolons segs) : IsPart part := by
  fun_induction joinSemicolons segs with
  | case1 first second rest hjoin ih =>
    rcases List.mem_cons.1 hpart with rfl | hpart
    · exact (h first (by simp)).append (h second (by simp))
    · exact ih (fun segment hsegment => h segment (by simp [hsegment])) hpart
  | case2 first second rest hjoin ih =>
    rcases List.mem_cons.1 hpart with rfl | hpart
    · exact h part (by simp)
    · exact ih (fun segment hsegment => h segment (List.mem_cons_of_mem first hsegment)) hpart
  | case3 segs hsegs => exact h part hpart

/-- **The segment of a member** is the text of the member behind some blanks. -/
theorem exists_segment_of_mem_ofBody (h : member ∈ Member.ofBody (markFrom .code cs)) :
    ∃ segment blanks, Member.ofSegment? segment = some member ∧ IsPart segment ∧ Text.Blank blanks ∧
      segment.chars = blanks ++ member.text.toList := by
  obtain ⟨segment, hsegment, hmember⟩ := List.mem_filterMap.1 h
  have hpart : IsPart segment :=
    isPart_of_mem_joinSemicolons (fun segment hsegment => isPart_of_mem_cutFrom hsegment) hsegment
  obtain ⟨front, last, hended, hlast⟩ := hpart.ended
  obtain ⟨c, rfl, -, hc⟩ := exists_shown_of_isTerminator hlast
  have hlast : segment.chars.getLast? = some c := by
    rw [hended, chars_append]
    exact List.getLast?_concat
  obtain ⟨before, behind, hbefore, hbehind, hcut⟩ := Text.exists_trim segment.chars
  have hnone : behind = [] := by
    cases hlast' : behind.getLast? with
    | none => exact List.getLast?_eq_none_iff.1 hlast'
    | some d =>
      rw [hcut, List.getLast?_append, List.getLast?_append, hlast'] at hlast
      obtain rfl : d = c := by simpa using hlast
      rw [hbehind d (List.mem_of_getLast? hlast')] at hc
      exact Bool.noConfusion hc
  refine ⟨segment, before, hmember, hpart, hbefore, ?_⟩
  rw [(eq_of_ofSegment? hmember).2.1, Text.trimmed, text,
    String.toList_ofList, String.toList_ofList]
  rwa [hnone, List.append_nil] at hcut

/-- **In the text of a member everything is closed.** -/
theorem whole_of_mem_ofBody (h : member ∈ Member.ofBody (markFrom .code cs)) :
    Whole member.text.toList := by
  obtain ⟨segment, blanks, -, hpart, hblanks, hchars⟩ := exists_segment_of_mem_ofBody h
  have hwhole := hpart.whole
  rw [hchars] at hwhole
  exact hwhole.of_blanks_append hblanks

end

end Source

end TableMapper
