import TableMapper.Proofs.Unit.Declaration

/-!
# Annotations in front of a declaration

An annotation of a type is a name behind the sign, possibly with arguments
(`IsAnnotation`). **Annotations that are written one to a line are read as
they were written** (`marksFrom_annotations`), and no declaration is found
in them (`idle_annotations`). What matters for the reading is that the
arguments end at their first closing parenthesis (`IsFlatMark`): **everything
that is read is such an annotation** (`exists_of_mem_marksFrom`).
-/

namespace TableMapper.Source

/-- The arguments of an annotation, parentheses and blanks in front of them
included; possibly none. Nothing in them ends them or the line, and no word
is a keyword. -/
def IsArguments (cs : List Char) : Prop :=
  cs = [] ∨ ∃ blanks inner, cs = blanks ++ '(' :: (inner ++ [')']) ∧ Text.Blank blanks ∧
    ')' ∉ inner ∧ ';' ∉ inner ∧ KeywordFree inner

/-- Arguments that end at their first closing parenthesis; possibly none. -/
def IsFlat (cs : List Char) : Prop :=
  cs = [] ∨ ∃ blanks inner, cs = blanks ++ '(' :: (inner ++ [')']) ∧ Text.Blank blanks ∧ ')' ∉ inner

/-- **An annotation as it is looked for**: the sign, a name directly behind it,
and arguments without a closing parenthesis in them. -/
def IsFlatMark (cs : List Char) : Prop :=
  ∃ start name args, cs = '@' :: start :: (name ++ args) ∧ isMarkStart start = true ∧
    (∀ c ∈ name, isPathChar c = true) ∧ IsFlat args

/-- The name of an annotation: a dotted name without dollar signs, of which
no part is a keyword. -/
structure IsMarkName (cs : List Char) : Prop where
  dotted : IsDotted cs
  dollar : '$' ∉ cs
  keywordFree : KeywordFree cs

/-- **An annotation of a type**, as far as its code goes. -/
def IsAnnotation (text : String) : Prop :=
  ∃ name args, codes (ofText text) = '@' :: (name ++ args) ∧ IsMarkName name ∧ IsArguments args

section

variable {cs name args : List Char} {text : String} {source part rest : Source} {c : SourceChar}

/-! ## The characters of an annotation -/

theorem IsMarkName.isPathChar (h : IsMarkName name) : ∀ c ∈ name, isPathChar c = true := by
  intro c hc
  rw [Source.isPathChar, Bool.or_eq_true, beq_iff_eq]
  rcases h.dotted.forall c hc with hchar | hdot
  · refine .inl (isWordChar_of_isNameChar hchar ?_)
    rintro rfl
    exact h.dollar hc
  · exact .inr hdot

theorem IsMarkName.head (h : IsMarkName name) :
    ∃ c rest, name = c :: rest ∧ isMarkStart c = true := by
  obtain ⟨c, rest, rfl, hc⟩ := h.dotted.head
  refine ⟨c, rest, rfl, ?_⟩
  have hne : c ≠ '$' := by
    rintro rfl
    exact h.dollar List.mem_cons_self
  rw [isNameStart, Bool.or_eq_true, beq_iff_eq, or_iff_left hne] at hc
  exact hc

/-- An identifier without dollar signs that is no keyword. -/
theorem isMarkName_of_isIdentifier (h : IsIdentifier name) (hdollar : '$' ∉ name)
    (hne : ∀ kind : DeclaredKind, name ≠ kind.keyword.toList) : IsMarkName name where
  dotted := .identifier h
  dollar := hdollar
  keywordFree := keywordFree_word
    (fun c hc => isWordChar_of_isNameChar (h.isNameChar c hc) fun heq => hdollar (heq ▸ hc)) hne

/-- What is no blank as code is code. -/
theorem eq_map_shown (h : ∀ c ∈ codes source, c ≠ ' ') : source = (codes source).map shown := by
  induction source with
  | nil => rfl
  | cons c source ih =>
    rw [codes_cons, List.map_cons, ← ih fun d hd => h d (List.mem_cons_of_mem _ hd)]
    exact congrArg (· :: source) (eq_shown_of_code rfl (h c.code List.mem_cons_self))

theorem eq_of_ofText_eq_map_shown (h : ofText text = cs.map shown) : text.toList = cs := by
  have hchars := congrArg chars h
  rwa [ofText, chars_markFrom, chars_map_shown] at hchars

/-- **An annotation is marked by itself.** -/
theorem IsAnnotation.settled (h : IsAnnotation text) : Settled text.toList := by
  obtain ⟨name, args, hcodes, hname, rfl | ⟨blanks, inner, rfl, -⟩⟩ := h
  · rw [List.append_nil] at hcodes
    have hchar : ∀ c ∈ '@' :: name, isInert c = true ∧ c ≠ ' ' := by
      intro c hc
      rcases List.mem_cons.1 hc with rfl | hc
      · decide
      · rcases hname.dotted.forall c hc with hchar | rfl
        · have hne := fun {d : Char} (hd : isNameChar d = false) => ne_of_isNameChar hchar hd
          exact ⟨by simp [isInert, hne (d := '"') (by decide), hne (d := '\x27') (by decide),
            hne (d := '/') (by decide)], hne (by decide)⟩
        · decide
    have hsource : ofText text = (codes (ofText text)).map shown :=
      eq_map_shown (hcodes ▸ fun c hc => (hchar c hc).2)
    rw [hcodes] at hsource
    rw [eq_of_ofText_eq_map_shown hsource]
    exact settled_of_inert fun c hc => (hchar c hc).1
  · -- the closing parenthesis is code
    have hlast : codes (ofText text) = ('@' :: (name ++ (blanks ++ '(' :: inner))) ++ [')'] := by
      rw [hcodes]
      simp
    obtain ⟨front, last, hsource, hfront, hcode⟩ := List.map_eq_append_iff.1 hlast
    obtain ⟨close, rfl, hclose⟩ : ∃ close, last = [close] ∧ close.code = ')' := by
      simpa [List.map_eq_singleton_iff] using hcode
    rw [eq_shown_of_code hclose (by decide)] at hsource
    obtain ⟨hsettled, -⟩ := settled_of_shown hsource (by decide)
    have htext := congrArg chars hsource
    rw [ofText, chars_markFrom, chars_append] at htext
    rw [htext]
    exact hsettled

/-- What holds no letters and no sign is part of no keyword. -/
theorem not_mem_keyword {d : Char} (h : d.isAlpha = false) (hsign : d ≠ '@') (kind : DeclaredKind) :
    d ∉ kind.keyword.toList := by
  intro hmem
  have hletters : ∀ e ∈ kind.keyword.toList, e.isAlpha = true ∨ e = '@' := by
    cases kind <;> decide
  rcases hletters d hmem with halpha | heq
  · rw [h] at halpha
    exact Bool.noConfusion halpha
  · exact hsign heq

theorem IsAnnotation.keywordFree (h : IsAnnotation text) : KeywordFree (codes (ofText text)) := by
  obtain ⟨name, args, hcodes, hname, hargs⟩ := h
  rw [hcodes]
  refine KeywordFree.mark ?_
  obtain rfl | ⟨blanks, inner, rfl, hblanks, -, -, hinner⟩ := hargs
  · rw [List.append_nil]
    exact hname.keywordFree
  · have hclosed : KeywordFree ('(' :: (inner ++ [')'])) :=
      keywordFree_nil.append_cons
        (hinner.append_cons keywordFree_nil (not_mem_keyword (by decide) (by decide)))
        (not_mem_keyword (by decide) (by decide))
    cases blanks with
    | nil => exact hname.keywordFree.append_cons (hinner.append_cons keywordFree_nil
        (not_mem_keyword (by decide) (by decide))) (not_mem_keyword (by decide) (by decide))
    | cons blank blanks =>
      exact hname.keywordFree.append_cons
        (hclosed.blanks_append fun c hc => hblanks c (List.mem_cons_of_mem blank hc))
        (not_mem_keyword_of_isBlank (hblanks blank List.mem_cons_self))

/-- An annotation ends no import. -/
theorem IsAnnotation.semicolon (h : IsAnnotation text) : ';' ∉ codes (ofText text) := by
  obtain ⟨name, args, hcodes, hname, hargs⟩ := h
  have hname : ';' ∉ name := hname.dotted.not_mem (by decide) (by decide)
  rw [hcodes]
  obtain rfl | ⟨blanks, inner, rfl, hblanks, -, hinner, -⟩ := hargs
  · simp [hname]
  · have hblanks : ';' ∉ blanks := hblanks.not_mem (by decide)
    simp [hname, hblanks, hinner]

/-! ## Reading one annotation -/

theorem takeWhile_append_of_head {p : SourceChar → Bool} {front behind : Source}
    (hfront : ∀ c ∈ front, p c = true) (hbehind : ∀ c ∈ behind.head?, p c = false) :
    (front ++ behind).takeWhile p = front := by
  rw [List.takeWhile_append_of_pos hfront]
  cases behind with
  | nil => rw [List.takeWhile_nil, List.append_nil]
  | cons c behind => rw [List.takeWhile_cons_of_neg (by simp [hbehind c rfl]), List.append_nil]

theorem dropWhile_append_of_head {p : SourceChar → Bool} {front behind : Source}
    (hfront : ∀ c ∈ front, p c = true) (hbehind : ∀ c ∈ behind.head?, p c = false) :
    (front ++ behind).dropWhile p = behind := by
  rw [List.dropWhile_append_of_pos hfront]
  cases behind with
  | nil => rfl
  | cons c behind => rw [List.dropWhile_cons_of_neg (by simp [hbehind c rfl])]

/-- The arguments of an annotation without any. -/
theorem arguments_of_head (h : ∀ c ∈ (skipBlanks rest).head?, c.code ≠ '(') :
    arguments rest = [] := by
  unfold arguments
  simp only
  cases hskip : skipBlanks rest with
  | nil => rfl
  | cons c behind =>
    rw [hskip] at h
    simp only [beq_iff_eq, h c rfl, if_false]

/-- **The arguments end at the first closing parenthesis.** -/
theorem arguments_append {blanks inner : Source} {opening closing : SourceChar}
    (hblanks : ∀ c ∈ blanks, Text.isBlank c.code = true) (hopening : opening.code = '(')
    (hinner : ∀ c ∈ inner, c.code ≠ ')') (hclosing : closing.code = ')') (rest : Source) :
    arguments (blanks ++ opening :: (inner ++ closing :: rest))
      = blanks ++ opening :: (inner ++ [closing]) := by
  have hhead : ∀ c ∈ (opening :: (inner ++ closing :: rest)).head?,
      Text.isBlank c.code = false := by
    rintro c ⟨⟩
    rw [hopening]
    decide
  have hclose : ∀ c ∈ (closing :: rest).head?, (c.code != ')') = false := by
    rintro c ⟨⟩
    simp [hclosing]
  have hpass : ∀ c ∈ inner, (c.code != ')') = true := fun c hc => by simpa using hinner c hc
  unfold arguments
  simp only [skipBlanks, takeWhile_append_of_head hblanks hhead,
    dropWhile_append_of_head hblanks hhead, hopening, beq_self_eq_true, if_true,
    dropWhile_append_of_head hpass hclose, takeWhile_append_of_head hpass hclose]
  simp

theorem isPathChar_of_isBlank (h : Text.isBlank c.code = true) : isPathChar c.code = false := by
  have hdot : c.code ≠ '.' := by
    intro heq
    rw [heq] at h
    exact absurd h (by decide)
  rw [isPathChar, isWordChar_of_isBlank h, Bool.false_or]
  simpa using hdot

/-- Flat arguments are read up to their end. -/
theorem arguments_of_isFlat {more : Source} (h : IsFlat (codes more))
    (hrest : more = [] → ∀ c ∈ (skipBlanks rest).head?, c.code ≠ '(') :
    arguments (more ++ rest) = more := by
  obtain hnone | ⟨blanks, inner, hcodes, hblanks, hinner⟩ := h
  · obtain rfl : more = [] := List.map_eq_nil_iff.1 hnone
    exact arguments_of_head (hrest rfl)
  · obtain ⟨blanks, behind, rfl, rfl, hbehind⟩ := List.map_eq_append_iff.1 hcodes
    obtain ⟨opening, behind, rfl, hopening, hbehind⟩ := List.map_eq_cons_iff.1 hbehind
    obtain ⟨inner, behind, rfl, rfl, hbehind⟩ := List.map_eq_append_iff.1 hbehind
    obtain ⟨closing, rfl, hclosing⟩ : ∃ closing, behind = [closing] ∧ closing.code = ')' := by
      simpa [List.map_eq_singleton_iff] using hbehind
    rw [List.append_assoc, List.cons_append, List.append_assoc]
    exact arguments_append (fun c hc => hblanks c.code (List.mem_map_of_mem hc)) hopening
      (fun c hc heq => hinner (heq ▸ List.mem_map_of_mem hc)) hclosing rest

/-- No name goes on with arguments. -/
theorem IsFlat.head (h : IsFlat args) : ∀ c ∈ args.head?, isPathChar c = false := by
  obtain rfl | ⟨blanks, inner, rfl, hblanks, -⟩ := h
  · simp
  · cases blanks with
    | nil =>
      rintro c ⟨⟩
      decide
    | cons blank blanks =>
      rintro c ⟨⟩
      exact isPathChar_of_isBlank (c := shown blank) (hblanks blank List.mem_cons_self)

/-- **An annotation is read up to its end**, if it ends with a parenthesis, or
what follows it goes on with neither the name nor arguments. -/
theorem IsFlatMark.markAt {mark : Source} (h : IsFlatMark (codes mark))
    (hrest : (codes mark).getLast? = some ')' ∨
      (∀ c ∈ rest.head?, isPathChar c.code = false) ∧ ∀ c ∈ (skipBlanks rest).head?, c.code ≠ '(') :
    markAt (mark ++ rest) = some mark := by
  obtain ⟨start, letters, args, hcodes, hstart, hletters, hargs⟩ := h
  have hend : args = [] → (codes mark).getLast? ≠ some ')' := by
    rintro rfl hlast
    rw [hcodes, List.append_nil, List.getLast?_cons_cons] at hlast
    rcases List.mem_cons.1 (List.mem_of_getLast? hlast) with heq | hmem
    · rw [← heq] at hstart
      exact absurd hstart (by decide)
    · exact absurd (hletters _ hmem) (by decide)
  -- the characters of the annotation, part by part
  obtain ⟨sign, behind, rfl, hsign, hnamed⟩ := List.map_eq_cons_iff.1 hcodes
  obtain ⟨first, behind, rfl, rfl, hread⟩ := List.map_eq_cons_iff.1 hnamed
  obtain ⟨name, more, rfl, rfl, rfl⟩ := List.map_eq_append_iff.1 hread
  have hpass : ∀ c ∈ name, isPathChar c.code = true :=
    fun c hc => hletters c.code (List.mem_map_of_mem hc)
  have hbehind : more = [] → (∀ c ∈ rest.head?, isPathChar c.code = false) ∧
      ∀ c ∈ (skipBlanks rest).head?, c.code ≠ '(' :=
    fun hnone => hrest.resolve_left (hend (by rw [hnone]; rfl))
  have hhead : ∀ c ∈ (more ++ rest).head?, isPathChar c.code = false := by
    cases more with
    | nil => exact (hbehind rfl).1
    | cons d more =>
      rintro c ⟨⟩
      exact hargs.head d.code rfl
  rw [List.cons_append, List.cons_append, List.append_assoc, Source.markAt, hsign, hstart,
    takeWhile_append_of_head hpass hhead]
  show some (sign :: first :: name ++ arguments ((name ++ (more ++ rest)).drop name.length)) = _
  rw [List.drop_left, arguments_of_isFlat hargs fun hnone => (hbehind hnone).2]
  rfl

theorem IsAnnotation.isFlatMark (h : IsAnnotation text) : IsFlatMark (codes (ofText text)) := by
  obtain ⟨word, args, hcodes, hword, hargs⟩ := h
  obtain ⟨start, letters, rfl, hstart⟩ := hword.head
  refine ⟨start, letters, args, hcodes, hstart,
    fun c hc => hword.isPathChar c (List.mem_cons_of_mem _ hc), ?_⟩
  obtain hnone | ⟨blanks, inner, hinner, hblanks, hclosing, -⟩ := hargs
  · exact .inl hnone
  · exact .inr ⟨blanks, inner, hinner, hblanks, hclosing⟩

/-- What is read as arguments begins the text and is flat. -/
theorem exists_of_arguments (source : Source) :
    ∃ back, source = arguments source ++ back ∧ IsFlat (codes (arguments source)) := by
  have hblanks := List.takeWhile_append_dropWhile
    (p := fun c : SourceChar => Text.isBlank c.code) (l := source)
  cases hskip : skipBlanks source with
  | nil => exact ⟨source, by simp [arguments, hskip], .inl (by simp [arguments, hskip])⟩
  | cons c rest =>
    by_cases hopening : c.code = '('
    · have hinner := List.takeWhile_append_dropWhile
        (p := fun d : SourceChar => d.code != ')') (l := rest)
      cases hdrop : rest.dropWhile fun d : SourceChar => d.code != ')' with
      | nil =>
        have hnone : arguments source = [] := by simp [arguments, hskip, hdrop]
        exact ⟨source, by rw [hnone]; rfl, .inl (by rw [hnone]; rfl)⟩
      | cons close back =>
        have hclosing : close.code = ')' := by
          have hhead := List.head?_dropWhile_not (fun d : SourceChar => d.code != ')') rest
          rw [hdrop] at hhead
          simpa using hhead
        have hread : arguments source = source.takeWhile (fun d => Text.isBlank d.code) ++
            c :: (rest.takeWhile (fun d => d.code != ')') ++ [close]) := by
          simp [arguments, hskip, hopening, hdrop]
        refine ⟨back, ?_, .inr ⟨codes (source.takeWhile fun d => Text.isBlank d.code),
          codes (rest.takeWhile fun d => d.code != ')'), ?_, ?_, ?_⟩⟩
        · conv_lhs => rw [← hblanks, show source.dropWhile _ = _ from hskip, ← hinner, hdrop]
          rw [hread]
          simp
        · rw [hread, codes_append, codes_cons, codes_append, hopening, codes_cons, hclosing]
          rfl
        · exact List.forall_mem_map.2 fun d hd => (List.mem_takeWhile_imp hd :)
        · intro hmem
          obtain ⟨d, hd, hcode⟩ := List.mem_map.1 hmem
          have hpass : (d.code != ')') = true := (List.mem_takeWhile_imp hd :)
          simp [hcode] at hpass
    · have hnone : arguments source = [] := by simp [arguments, hskip, hopening]
      exact ⟨source, by rw [hnone]; rfl, .inl (by rw [hnone]; rfl)⟩

/-- **What is read is an annotation with flat arguments.** -/
theorem exists_of_markAt {mark : Source} (h : markAt source = some mark) :
    ∃ back, source = mark ++ back ∧ IsFlatMark (codes mark) := by
  cases source with
  | nil => exact absurd h (by simp [markAt])
  | cons c source =>
  cases source with
  | nil => exact absurd h (by simp [markAt])
  | cons d rest =>
    rw [markAt] at h
    split at h
    next hbegins =>
      obtain ⟨hsign, hstart⟩ := (Bool.and_eq_true _ _).mp hbegins
      have hname := List.takeWhile_append_dropWhile
        (p := fun e : SourceChar => isPathChar e.code) (l := rest)
      have hpass : ∀ e ∈ rest.takeWhile fun e => isPathChar e.code, isPathChar e.code = true :=
        fun e he => (List.mem_takeWhile_imp he :)
      have hmark := Option.some.inj h
      generalize hletters : rest.takeWhile (fun e => isPathChar e.code) = name at hname hpass hmark
      rw [← hname, List.drop_left] at hmark
      obtain ⟨back, hback, hargs⟩ := exists_of_arguments (rest.dropWhile fun e => isPathChar e.code)
      refine ⟨back, ?_, d.code, codes name, codes (arguments _), ?_, hstart,
        List.forall_mem_map.2 hpass, hargs⟩
      · rw [← hmark]
        simp [← hback, hname]
      · rw [← hmark]
        simp [beq_iff_eq.1 hsign]
    · exact absurd h (by simp)

/-! ## Reading all annotations -/

theorem marksFrom_skip (part rest : Source) :
    marksFrom part.length (part ++ rest) = marksFrom 0 rest := by
  induction part with
  | nil => rfl
  | cons c part ih => exact ih

theorem marksFrom_cons_of_some (h : markAt (c :: part ++ rest) = some (c :: part)) :
    marksFrom 0 (c :: part ++ rest) = (c :: part) :: marksFrom 0 rest := by
  rw [List.cons_append] at h ⊢
  rw [marksFrom, h]
  exact congrArg _ (marksFrom_skip part rest)

/-- Without the sign there is no annotation. -/
theorem marksFrom_append (h : ∀ c ∈ part, c.code ≠ '@') (rest : Source) :
    marksFrom 0 (part ++ rest) = marksFrom 0 rest := by
  induction part with
  | nil => rfl
  | cons c part ih =>
    have hnone : markAt (c :: (part ++ rest)) = none := by
      cases hmore : part ++ rest with
      | nil => rfl
      | cons d more =>
        rw [markAt, if_neg]
        simp [h c List.mem_cons_self]
    rw [List.cons_append, marksFrom, hnone]
    exact ih fun d hd => h d (List.mem_cons_of_mem c hd)

/-- **Every annotation that is read is one with flat arguments**, and stands
where it is read. -/
theorem exists_of_mem_marksFrom {skip : Nat} {mark : Source} (h : mark ∈ marksFrom skip source) :
    ∃ front back, source = front ++ (mark ++ back) ∧ IsFlatMark (codes mark) := by
  induction source generalizing skip with
  | nil => exact absurd h (by cases skip <;> simp [marksFrom])
  | cons c source ih =>
    have hlater : ∀ {skip}, mark ∈ marksFrom skip source →
        ∃ front back, c :: source = front ++ (mark ++ back) ∧ IsFlatMark (codes mark) := by
      intro skip hmem
      obtain ⟨front, back, hcut, hflat⟩ := ih hmem
      exact ⟨c :: front, back, by rw [hcut]; rfl, hflat⟩
    cases skip with
    | succ skip => exact hlater h
    | zero =>
      rw [marksFrom] at h
      split at h
      next found hat =>
        rcases List.mem_cons.1 h with rfl | hmem
        · obtain ⟨back, hcut, hflat⟩ := exists_of_markAt hat
          exact ⟨[], back, hcut, hflat⟩
        · exact hlater hmem
      · exact hlater h

/-- Annotations, one to a line. -/
def annotationLines (annotations : List String) : Source :=
  annotations.flatMap fun text => ofText text ++ [shown '\n']

variable {annotations : List String}

theorem markFrom_renderAnnotations (h : ∀ text ∈ annotations, IsAnnotation text)
    (behind : List Char) :
    markFrom .code ((renderAnnotations "" annotations).toList ++ behind)
      = annotationLines annotations ++ markFrom .code behind := by
  induction annotations with
  | nil => rfl
  | cons text annotations ih =>
    have htext : (renderAnnotations "" (text :: annotations)).toList
        = text.toList ++ '\n' :: (renderAnnotations "" annotations).toList := by
      simp [renderAnnotations, String.join_cons]
    rw [htext, List.append_assoc, (h text List.mem_cons_self).settled, List.cons_append,
      markFrom_inert_cons (by decide), ih fun other hother =>
        h other (List.mem_cons_of_mem text hother)]
    simp [annotationLines, ofText]

/-- What follows annotations begins with the sign of the next one. -/
theorem head?_annotationLines (h : ∀ text ∈ annotations, IsAnnotation text)
    (hrest : ∀ c ∈ (skipBlanks rest).head?, c.code ≠ '(') :
    ∀ c ∈ (skipBlanks (annotationLines annotations ++ rest)).head?, c.code ≠ '(' := by
  cases annotations with
  | nil => exact hrest
  | cons text annotations =>
    obtain ⟨name, args, hcodes, -⟩ := h text List.mem_cons_self
    obtain ⟨sign, behind, hsource, hsign, -⟩ := List.map_eq_cons_iff.1 hcodes
    have hskip : skipBlanks (annotationLines (text :: annotations) ++ rest)
        = annotationLines (text :: annotations) ++ rest := by
      rw [annotationLines, List.flatMap_cons, hsource]
      exact List.dropWhile_cons_of_neg (by rw [hsign]; decide)
    rw [hskip, annotationLines, List.flatMap_cons, hsource]
    rintro c ⟨⟩
    rw [hsign]
    decide

/-- **Annotations that are written one to a line are read as they were
written.** -/
theorem marksFrom_annotations (h : ∀ text ∈ annotations, IsAnnotation text)
    (hrest : ∀ c ∈ (skipBlanks rest).head?, c.code ≠ '(') :
    marksFrom 0 (annotationLines annotations ++ rest)
      = annotations.map ofText ++ marksFrom 0 rest := by
  induction annotations with
  | nil => rfl
  | cons text annotations ih =>
    have hannotations : ∀ other ∈ annotations, IsAnnotation other :=
      fun other hother => h other (List.mem_cons_of_mem text hother)
    have hhead : ∀ c ∈ (skipBlanks (shown '\n' :: (annotationLines annotations ++ rest))).head?,
        c.code ≠ '(' := head?_annotationLines hannotations hrest
    have hmark : markAt (ofText text ++ shown '\n' :: (annotationLines annotations ++ rest))
        = some (ofText text) := by
      refine (h text List.mem_cons_self).isFlatMark.markAt (.inr ⟨?_, hhead⟩)
      rintro c ⟨⟩
      decide
    have hlines : annotationLines (text :: annotations) ++ rest
        = ofText text ++ shown '\n' :: (annotationLines annotations ++ rest) := by
      rw [annotationLines, List.flatMap_cons]
      simp [annotationLines]
    obtain ⟨c, part, hsource⟩ : ∃ c part, ofText text = c :: part := by
      obtain ⟨name, args, hcodes, -⟩ := h text List.mem_cons_self
      obtain ⟨sign, behind, hsource, -⟩ := List.map_eq_cons_iff.1 hcodes
      exact ⟨sign, behind, hsource⟩
    have hnext : marksFrom 0 (shown '\n' :: (annotationLines annotations ++ rest))
        = marksFrom 0 (annotationLines annotations ++ rest) := by
      rw [← List.singleton_append, marksFrom_append]
      decide
    rw [hsource] at hmark
    rw [hlines, List.map_cons, hsource, marksFrom_cons_of_some hmark, hnext,
      ih hannotations, List.cons_append]

/-- **No declaration is found in annotations.** -/
theorem idle_annotations (h : ∀ text ∈ annotations, IsAnnotation text) :
    Idle (annotationLines annotations) := by
  induction annotations with
  | nil => exact idle_nil
  | cons text annotations ih =>
    rw [annotationLines, List.flatMap_cons]
    exact (idle_line (h text List.mem_cons_self).keywordFree).append
      (ih fun other hother => h other (List.mem_cons_of_mem text hother))

/-- Annotations end no import. -/
theorem semicolon_annotationLines (h : ∀ text ∈ annotations, IsAnnotation text) :
    ∀ c ∈ annotationLines annotations, c.code ≠ ';' := by
  intro c hc heq
  obtain ⟨text, htext, hmem⟩ := List.mem_flatMap.1 hc
  rcases List.mem_append.1 hmem with hmem | hmem
  · exact (h text htext).semicolon (heq ▸ List.mem_map_of_mem hmem)
  · obtain rfl := List.mem_singleton.1 hmem
    exact absurd heq (by decide)

end

end TableMapper.Source
