import TableMapper.Proofs.Merge.Braces
import TableMapper.Proofs.Merge.MemberSlices
import TableMapper.Proofs.Unit.ByteMask

/-!
# A type body cut byte by byte

The body of a type is cut into members in one pass over the bytes of the
masked text. The pass counts braces, and where a member ends it cuts the
member out of both texts, from the end of the one before to the byte it is at;
behind a closing brace it first jumps over blanks to a semicolon. A byte that
ends a member is a whole character, since the bytes of longer characters are
none of the three that are looked for (`eq_of_mem_encode`), and it stands at
the same place in both texts. **So every cut lies between characters of both
texts, with its beginning not behind its end, and the members are those of the
body** (`Member.splitFrom?_eq`, `Member.splitBody?_eq`).
-/

namespace TableMapper

open Text

namespace Source

variable {c : SourceChar} {source more : Source} {b : UInt8}

/-! ## Bytes of a source text -/

theorem encode_append (cs ds : List Char) : encode (cs ++ ds) = encode cs ++ encode ds :=
  List.flatMap_append

theorem length_encode (cs : List Char) : (encode cs).length = byteLength cs := by
  induction cs with
  | nil => rfl
  | cons c cs ih =>
    rw [← List.singleton_append, encode_append, List.length_append, ih, byteLength_append]
    simp [encode]

theorem blanked_cons (c : SourceChar) (source : Source) :
    blanked (c :: source) = blanked [c] ++ blanked source :=
  blanked_append [c] source

/-- **A byte of seven bits is a character of the text.** -/
theorem eq_of_mem_encode (hb : b ∈ encode (blanked [c])) (hlow : b.toNat < 128) :
    Char.ofUInt8 b = c.code := by
  obtain ⟨d, rfl⟩ | ⟨d, rfl⟩ := shown_or_concealed c
  · have hmem : Char.ofUInt8 b ∈ spread d :=
      List.mem_map_of_mem (by simpa [encode, blanked, shown] using hb)
    by_cases hd : IsHigh d
    · have hhigh := isHigh_of_mem_spread hd hmem
      rw [IsHigh, toNat_ofUInt8] at hhigh
      omega
    · rw [spread_of_not_isHigh hd] at hmem
      exact List.mem_singleton.1 hmem
  · have hblanks : encode (blanked [concealed d]) = List.replicate d.utf8Size 0x20 := by
      rw [← encode_blanks]
      exact congrArg encode (List.append_nil _)
    rw [hblanks] at hb
    rw [List.eq_of_mem_replicate hb]
    rfl

/-- A text and its masked text begin with the same code. -/
theorem head?_blanked (source : Source) : source.blanked.head? = source.head?.map (·.code) := by
  cases source with
  | nil => rfl
  | cons c source =>
    obtain ⟨d, rfl⟩ | ⟨d, rfl⟩ := shown_or_concealed c
    · rfl
    · obtain ⟨n, hn⟩ := Nat.exists_eq_succ_of_ne_zero d.utf8Size_pos.ne'
      have hblanked : blanked (concealed d :: source)
          = List.replicate d.utf8Size ' ' ++ blanked source := rfl
      rw [hblanked, hn]
      rfl

/-! ## Parts of both texts -/

variable {whole front part rest : Source}

theorem from?_blanked (h : whole = front ++ rest) :
    from? (byteLength front.chars) whole.blanked = some rest.blanked := by
  rw [h, blanked_append, ← byteLength_blanked]
  exact from?_append _ _

theorem slice?_chars (h : whole = front ++ (part ++ rest)) :
    slice? (byteLength front.chars) (byteLength (front ++ part).chars) whole.chars
      = some part.chars := by
  rw [h, chars_append, chars_append, chars_append, byteLength_append]
  exact slice?_append _ _ _

/-- **A part of the text is between the same places in the masked text.** -/
theorem slice?_blanked (h : whole = front ++ (part ++ rest)) :
    slice? (byteLength front.chars) (byteLength (front ++ part).chars) whole.blanked
      = some part.blanked := by
  rw [h, blanked_append, blanked_append, ← byteLength_blanked, ← byteLength_blanked, blanked_append,
    byteLength_append]
  exact slice?_append _ _ _

/-! ## Semicolons behind blanks -/

/-- Code of which a semicolon is left when it is trimmed begins with it. -/
theorem exists_of_trimmedCodes (h : trimmedCodes part = [';']) :
    ∃ blanks c more, part = blanks ++ c :: more ∧ Blank (codes blanks) ∧ c.code = ';' := by
  obtain ⟨front, behind, hfront, -, hcodes⟩ := exists_trim (codes part)
  rw [show trim (codes part) = [';'] from h, List.append_assoc] at hcodes
  obtain ⟨blanks, rest, rfl, rfl, hrest⟩ := List.map_eq_append_iff.1 hcodes
  obtain ⟨c, more, rfl, hc, -⟩ := List.map_eq_cons_iff.1 hrest
  exact ⟨blanks, c, more, rfl, hfront, hc⟩

theorem exists_of_skipBlanks (h : ∃ c ∈ (skipBlanks rest).head?, c.code = ';') :
    ∃ blanks c more, rest = blanks ++ c :: more ∧ Blank (codes blanks) ∧ c.code = ';' := by
  obtain ⟨c, hc, hcode⟩ := h
  obtain ⟨more, hmore⟩ := List.head?_eq_some_iff.1 (Option.mem_def.1 hc)
  refine ⟨rest.takeWhile fun c => isBlank c.code, c, more, ?_, ?_, hcode⟩
  · rw [← hmore]
    exact List.takeWhile_append_dropWhile.symm
  · exact List.forall_mem_map.2 fun d hd => (List.mem_takeWhile_imp hd :)

theorem cutFrom_blanks_semicolon {blanks : Source} (hblanks : Blank (codes blanks))
    (hc : c.code = ';') (rest : Source) :
    cutFrom 0 [] (blanks ++ c :: rest) = (blanks ++ [c]) :: cutFrom 0 [] rest := by
  rw [List.append_cons]
  exact cuts_semicolon
    (fun d hd => braceless_of_blank hblanks d.code (List.mem_map_of_mem hd)) hc rest

end Source

namespace Member

open Source

/-! ## The pass over the bytes -/

/-- The members between two places: one or none. -/
def between? (text masked : List Char) (start stop : Nat) : Option (List Member) := do
  let raw ← slice? start stop text
  let code ← slice? start stop masked
  let member ← ofSlice? raw code
  return member.toList

/-- How many bytes there are from a place to the end of the semicolon that
follows it behind blanks. -/
def semicolonBehind? (masked : List Char) (place : Nat) : Option Nat := do
  let rest ← from? place masked
  if [';'].isPrefixOf (trimStart rest) then return byteLength rest - byteLength (trimStart rest) + 1
  else return 0

/-- **The members from a place on**, of which the first one begins at `start`,
given the bytes of the masked text from that place on and the number of braces
open. -/
def splitFrom? (text masked : List Char) (depth start place : Nat) :
    List UInt8 → Option (List Member)
  | [] => some []
  | b :: bytes =>
    if b = 0x7b then splitFrom? text masked (depth + 1) start (place + 1) bytes
    else if b = 0x7d then
      if depth = 0 then some []
      else if depth = 1 then do
        let jump ← semicolonBehind? masked (place + 1)
        let stop := place + 1 + jump
        let member ← between? text masked start stop
        let members ← splitFrom? text masked 0 stop stop (bytes.drop jump)
        return member ++ members
      else splitFrom? text masked (depth - 1) start (place + 1) bytes
    else if b = 0x3b ∧ depth = 0 then do
      let stop := place + 1
      let member ← between? text masked start stop
      let members ← splitFrom? text masked 0 stop stop bytes
      return member ++ members
    else splitFrom? text masked depth start (place + 1) bytes
termination_by bytes => bytes.length

/-- **The members of a body** that begins at a place. -/
def splitBody? (text masked : List Char) (start : Nat) : Option (List Member) :=
  splitFrom? text masked 0 start start ((encode masked).drop start)

variable {whole front segment part rest : Source} {depth : Nat}

/-- **A part of the text is the same slice of both texts.** -/
theorem between?_eq (h : whole = front ++ (part ++ rest)) :
    between? whole.chars whole.blanked (byteLength front.chars) (byteLength (front ++ part).chars)
      = some (ofSegment? part).toList := by
  rw [between?, slice?_chars h, slice?_blanked h]
  simp only [Option.bind_eq_bind, Option.bind_some, ofSlice?_eq]
  rfl

theorem semicolonBehind?_of_ne (h : whole = front ++ rest)
    (hrest : ∀ c ∈ (skipBlanks rest).head?, c.code ≠ ';') :
    semicolonBehind? whole.blanked (byteLength front.chars) = some 0 := by
  have hnone : [';'].isPrefixOf (skipBlanks rest).blanked = false := by
    have hhead := head?_blanked (skipBlanks rest)
    cases hblanked : (skipBlanks rest).blanked with
    | nil => rfl
    | cons d more =>
      rw [hblanked, List.head?_cons] at hhead
      obtain ⟨c, hc, rfl⟩ := Option.map_eq_some_iff.1 hhead.symm
      rw [List.isPrefixOf_cons_cons, beq_eq_false_iff_ne.2 (hrest c hc).symm, Bool.false_and]
  rw [semicolonBehind?, from?_blanked h]
  simp only [Option.bind_eq_bind, Option.bind_some, trimStart_blanked, hnone]
  rfl

theorem semicolonBehind?_of_eq {blanks : Source} {c : SourceChar}
    (h : whole = front ++ (blanks ++ c :: rest))
    (hblanks : ∀ d ∈ blanks, isBlank d.code = true) (hc : c.code = ';') :
    semicolonBehind? whole.blanked (byteLength front.chars)
      = some (byteLength (blanks ++ [c]).chars) := by
  have hskip : skipBlanks (blanks ++ c :: rest) = c :: rest := by
    rw [skipBlanks, List.dropWhile_append_of_pos hblanks,
      List.dropWhile_cons_of_neg (by rw [hc]; decide)]
  obtain rfl := eq_shown_of_code hc (by decide)
  rw [semicolonBehind?, from?_blanked h]
  simp only [Option.bind_eq_bind, Option.bind_some, trimStart_blanked, hskip, byteLength_blanked]
  show some (byteLength (chars (blanks ++ shown ';' :: rest)) - byteLength
      (chars (shown ';' :: rest)) + 1) = _
  have hsemicolon : (shown ';').char.utf8Size = 1 := rfl
  simp only [chars_append, chars_cons, chars_nil, byteLength_append, byteLength_cons,
    byteLength_nil, hsemicolon]
  exact congrArg some (by omega)

/-- Bytes that are none of the three are passed. -/
theorem splitFrom?_append {passed : List UInt8}
    (h : ∀ b ∈ passed, b ≠ 0x7b ∧ b ≠ 0x7d ∧ ¬ (b = 0x3b ∧ depth = 0))
    (text masked : List Char) (start place : Nat) (bytes : List UInt8) :
    splitFrom? text masked depth start place (passed ++ bytes)
      = splitFrom? text masked depth start (place + passed.length) bytes := by
  induction passed generalizing place with
  | nil => rfl
  | cons b passed ih =>
    obtain ⟨hopen, hclose, hsemicolon⟩ := h b List.mem_cons_self
    rw [List.cons_append, splitFrom?, if_neg hopen, if_neg hclose, if_neg hsemicolon,
      ih fun b hb => h b (List.mem_cons_of_mem _ hb), List.length_cons]
    exact congrArg (splitFrom? text masked depth start · bytes) (by omega)

/-- No byte of another character ends a member. -/
theorem splitFrom?_other {c : SourceChar} (hopen : c.code ≠ '\x7b') (hclose : c.code ≠ '\x7d')
    (hsemicolon : ¬ (c.code = ';' ∧ depth = 0)) (text masked : List Char)
    (start place : Nat) (rest : Source) :
    splitFrom? text masked depth start place (encode (blanked (c :: rest)))
      = splitFrom? text masked depth start (place + c.char.utf8Size) (encode rest.blanked) := by
  have hbytes : ∀ b ∈ encode (blanked [c]), b ≠ 0x7b ∧ b ≠ 0x7d ∧ ¬ (b = 0x3b ∧ depth = 0) := by
    intro b hb
    refine ⟨?_, ?_, ?_⟩
    · rintro rfl
      exact hopen (eq_of_mem_encode hb (by decide)).symm
    · rintro rfl
      exact hclose (eq_of_mem_encode hb (by decide)).symm
    · rintro ⟨rfl, hdepth⟩
      exact hsemicolon ⟨(eq_of_mem_encode hb (by decide)).symm, hdepth⟩
  rw [blanked_cons, encode_append, splitFrom?_append hbytes, length_encode, byteLength_blanked]
  rfl

/-- A segment that is followed by no semicolon of its own. -/
theorem joinSemicolons_cons {first : Source} {segs : List Source}
    (h : endsWithBrace first = true → ∀ second ∈ segs.head?, trimmedCodes second ≠ [';']) :
    joinSemicolons (first :: segs) = first :: joinSemicolons segs := by
  cases segs with
  | nil => rfl
  | cons second more =>
    rw [joinSemicolons, if_neg]
    rw [Bool.and_eq_true, beq_iff_eq]
    exact fun hjoin => h hjoin.1 second rfl hjoin.2

/-- A segment of a semicolon alone begins where the text behind blanks does. -/
theorem code_of_trimmedCodes {segs : List Source} {second : Source}
    (hcut : cutFrom 0 [] rest = second :: segs)
    (hsecond : trimmedCodes second = [';']) : ∃ c ∈ (skipBlanks rest).head?, c.code = ';' := by
  obtain ⟨part, more, rfl, hpart, -⟩ := exists_of_cutFrom_eq_cons hcut
  rw [List.reverse_nil, List.nil_append] at hpart
  subst hpart
  obtain ⟨blanks, c, behind, rfl, hblanks, hc⟩ := exists_of_trimmedCodes hsecond
  refine ⟨c, ?_, hc⟩
  rw [List.append_assoc, skipBlanks,
    List.dropWhile_append_of_pos fun d hd => hblanks d.code (List.mem_map_of_mem hd),
    List.cons_append, List.dropWhile_cons_of_neg (by rw [hc]; decide)]
  rfl

theorem filterMap_cons_eq (part : Source) (segs : List Source) :
    (part :: segs).filterMap ofSegment?
      = (ofSegment? part).toList ++ segs.filterMap ofSegment? := by
  rw [List.filterMap_cons]
  cases ofSegment? part <;> rfl

/-- The end of a member is the beginning of the next one. -/
theorem splitFrom?_ended {bytes : List UInt8} {segs : List Source}
    (h : whole = front ++ (part ++ rest))
    (hrest : splitFrom? whole.chars whole.blanked 0 (byteLength (front ++ part).chars)
      (byteLength (front ++ part).chars) bytes = some (segs.filterMap ofSegment?)) :
    (do
      let member ← between? whole.chars whole.blanked (byteLength front.chars) (byteLength
        (front ++ part).chars)
      let members ← splitFrom? whole.chars whole.blanked 0 (byteLength (front ++ part).chars)
        (byteLength (front ++ part).chars) bytes
      return member ++ members) = some ((part :: segs).filterMap ofSegment?) := by
  rw [hrest, between?_eq h, filterMap_cons_eq]
  rfl

/-- A closing brace, and the semicolon behind it if there is one. -/
theorem splitFrom?_close (hwhole : whole = front ++ (part ++ rest))
    (hbrace : endsWithBrace part = true)
    (hrest : ∀ {part behind : Source}, whole = front ++ (part ++ behind) →
      behind.length ≤ rest.length →
      splitFrom? whole.chars whole.blanked 0 (byteLength (front ++ part).chars)
        (byteLength (front ++ part).chars)
          (encode behind.blanked)
        = some ((joinSemicolons (cutFrom 0 [] behind)).filterMap ofSegment?)) :
    (do
      let jump ← semicolonBehind? whole.blanked (byteLength (front ++ part).chars)
      let stop := byteLength (front ++ part).chars + jump
      let member ← between? whole.chars whole.blanked (byteLength front.chars) stop
      let members ← splitFrom? whole.chars whole.blanked 0 stop stop ((encode
        rest.blanked).drop jump)
      return member ++ members)
        = some ((joinSemicolons (part :: cutFrom 0 [] rest)).filterMap ofSegment?) := by
  have hfront : whole = (front ++ part) ++ rest := by rw [hwhole, List.append_assoc]
  by_cases hsemicolon : ∃ c ∈ (skipBlanks rest).head?, c.code = ';'
  · obtain ⟨gap, c, more, hcut, hblanks, hcode⟩ := exists_of_skipBlanks hsemicolon
    have hgap : ∀ d ∈ gap, isBlank d.code = true :=
      fun d hd => hblanks d.code (List.mem_map_of_mem hd)
    have hjump := semicolonBehind?_of_eq (hcut ▸ hfront) hgap hcode
    have hsplit : rest = (gap ++ [c]) ++ more := by simp [hcut]
    have hwhole : whole = front ++ (part ++ (gap ++ [c]) ++ more) := by simp [hwhole, hcut]
    have hstop : byteLength (front ++ part).chars + byteLength (chars (gap ++ [c]))
        = byteLength (front ++ (part ++ (gap ++ [c]))).chars := by simp [Nat.add_assoc]
    have hbytes : (encode rest.blanked).drop (byteLength (chars (gap ++ [c])))
        = encode (blanked more) := by
      rw [hsplit, blanked_append, encode_append, ← byteLength_blanked,
        ← length_encode, List.drop_left]
    have hsegs : cutFrom 0 [] rest = (gap ++ [c]) :: cutFrom 0 [] more := by
      rw [hcut]
      exact cutFrom_blanks_semicolon hblanks hcode more
    rw [hjump, hsegs, joinSemicolons_semicolon hbrace hblanks hcode]
    simp only [Option.bind_eq_bind, Option.bind_some, hstop, hbytes]
    exact splitFrom?_ended hwhole
      (hrest hwhole (by rw [hsplit, List.length_append]; exact Nat.le_add_left _ _))
  · rw [semicolonBehind?_of_ne hfront fun c hc hcode => hsemicolon ⟨c, hc, hcode⟩,
      joinSemicolons_cons fun _ second hsecond hcode => ?_]
    · exact splitFrom?_ended hwhole (hrest hwhole le_rfl)
    · obtain ⟨segs, hsegs⟩ := List.head?_eq_some_iff.1 (Option.mem_def.1 hsecond)
      exact hsemicolon (code_of_trimmedCodes hsegs hcode)

/-- **No cut fails, and the members are those of the segments.** -/
theorem splitFrom?_eq (depth : Nat) (hwhole : whole = front ++ (segment.reverse ++ rest)) :
    splitFrom? whole.chars whole.blanked depth (byteLength front.chars)
      (byteLength (front ++ segment.reverse).chars)
        (encode rest.blanked)
      = some ((joinSemicolons (cutFrom depth segment rest)).filterMap ofSegment?) := by
  induction hlength : rest.length using Nat.strong_induction_on
    generalizing front segment depth rest with
  | h n ih =>
    cases rest with
    | nil =>
      show splitFrom? _ _ depth _ _ [] = _
      rw [splitFrom?]
      rfl
    | cons c rest =>
      have hshorter : rest.length < n := hlength ▸ Nat.lt_succ_self _
      have hnext : whole = front ++ ((c :: segment).reverse ++ rest) := by simp [hwhole]
      have hplace : byteLength (front ++ segment.reverse).chars + c.char.utf8Size
          = byteLength (front ++ (c :: segment).reverse).chars := by
        simp [Nat.add_assoc]
      have hbehind : ∀ {part rest : Source}, whole = front ++ (part ++ rest) → rest.length < n →
          splitFrom? whole.chars whole.blanked 0 (byteLength (front ++ part).chars)
            (byteLength (front ++ part).chars)
            (encode rest.blanked)
              = some ((joinSemicolons (cutFrom 0 [] rest)).filterMap ofSegment?) := by
        intro part rest hcut hrest
        have hcut : whole = (front ++ part) ++ (List.reverse [] ++ rest) := by simpa using hcut
        have h := ih _ hrest 0 hcut rfl
        rwa [List.reverse_nil, List.append_nil] at h
      by_cases hopen : c.code = '\x7b'
      · obtain rfl := eq_shown_of_code hopen (by decide)
        rw [cutFrom_open hopen, ← ih _ hshorter _ hnext rfl, ← hplace]
        show splitFrom? _ _ depth _ _ (0x7b :: encode (blanked rest)) = _
        rw [splitFrom?, if_pos rfl]
        rfl
      by_cases hclose : c.code = '\x7d'
      · obtain rfl := eq_shown_of_code hclose (by decide)
        show splitFrom? _ _ depth _ _ (0x7d :: encode (blanked rest)) = _
        rw [splitFrom?, if_neg (by decide), if_pos rfl]
        match depth with
        | 0 =>
          rw [if_pos rfl, cutFrom_close_zero hclose]
          rfl
        | 1 =>
          rw [if_neg (by decide), if_pos rfl, cutFrom_close_one hclose]
          have hbrace : endsWithBrace (shown '\x7d' :: segment).reverse = true := by
            rw [List.reverse_cons, endsWithBrace_concat]
            rfl
          have hstop : byteLength (front ++ segment.reverse).chars + 1 = _ := hplace
          rw [hstop]
          exact splitFrom?_close hnext hbrace fun hcut hrest =>
            hbehind hcut (lt_of_le_of_lt hrest hshorter)
        | depth + 2 =>
          rw [if_neg (by omega), if_neg (by omega), cutFrom_close_add_two hclose,
            ← ih _ hshorter _ hnext rfl, ← hplace]
          rfl
      by_cases hsemicolon : c.code = ';' ∧ depth = 0
      · obtain ⟨hcode, rfl⟩ := hsemicolon
        obtain rfl := eq_shown_of_code hcode (by decide)
        show splitFrom? _ _ 0 _ _ (0x3b :: encode (blanked rest)) = _
        rw [splitFrom?, if_neg (by decide), if_neg (by decide), if_pos ⟨rfl, rfl⟩,
          cutFrom_semicolon hcode]
        have hbrace : endsWithBrace (shown ';' :: segment).reverse = false := by
          rw [List.reverse_cons, endsWithBrace_concat]
          rfl
        rw [joinSemicolons_cons fun h => by rw [hbrace] at h; cases h]
        have hstop : byteLength (front ++ segment.reverse).chars + 1 = _ := hplace
        rw [hstop]
        exact splitFrom?_ended hnext (hbehind hnext hshorter)
      · rw [cutFrom_other hopen hclose hsemicolon, ← ih _ hshorter _ hnext rfl, ← hplace]
        exact splitFrom?_other hopen hclose hsemicolon _ _ _ _ _

theorem splitBody?_eq {body : Source} (hwhole : whole = front ++ body) :
    splitBody? whole.chars whole.blanked (byteLength front.chars) = some (ofBody body) := by
  have hbytes : (encode whole.blanked).drop (byteLength front.chars) = encode body.blanked := by
    rw [hwhole, blanked_append, encode_append, ← byteLength_blanked,
      ← length_encode, List.drop_left]
  rw [splitBody?, hbytes]
  have hwhole : whole = front ++ (List.reverse [] ++ body) := hwhole
  have h := splitFrom?_eq 0 hwhole
  rwa [List.reverse_nil, List.append_nil] at h

end Member

end TableMapper
