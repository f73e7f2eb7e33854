import TableMapper.Proofs.Unit.Annotations

/-!
# The imports of a written file

An import is a dotted name, possibly a static one, and possibly with a star
behind it (`IsImport`). **Imports that are written one to a line are read in
order** (`importsFrom_prelude`), except those with a dollar sign, which is
no part of a path. What follows the last import is a part of the file behind
a semicolon, so it holds everything in which no semicolon is.
-/

namespace TableMapper.Source

/-- A dotted name, possibly with a star behind it. -/
def IsPath (cs : List Char) : Prop :=
  ∃ name, IsDotted name ∧ (cs = name ∨ cs = name ++ ['.', '*'])

/-- **An import**, as it stands between the keyword and the semicolon. -/
def IsImport (cs : List Char) : Prop :=
  IsPath cs ∨ ∃ path, IsPath path ∧ cs = "static ".toList ++ path

/-- An import that is recognised again. -/
def isReadable (name : String) : Bool :=
  !name.toList.contains '$'

section

variable {cs path word : List Char} {source rest behind : Source} {c : SourceChar}

/-! ## What follows an import -/

theorem exists_of_suffix (front : Source) (hsuffix : rest <:+ source)
    (h : rest = front ++ c :: behind) : ∃ front', source = front' ++ c :: behind := by
  obtain ⟨more, rfl⟩ := hsuffix
  exact ⟨more ++ front, by rw [h, List.append_assoc]⟩

theorem exists_of_behindSemicolon (h : behindSemicolon source = some behind) :
    ∃ front c, source = front ++ c :: behind ∧ c.code = ';' := by
  unfold behindSemicolon at h
  split at h
  · simp at h
  next c more hskip =>
    split at h
    next hc =>
      obtain rfl := Option.some.inj h
      obtain ⟨front, hfront⟩ := exists_of_suffix [] (List.dropWhile_suffix _) hskip
      exact ⟨front, c, hfront, beq_iff_eq.1 hc⟩
    · simp at h

/-- What follows the path of an import follows a semicolon. -/
theorem exists_of_importPath {found : List Char × Source} (h : importPath source = some found) :
    ∃ front c, source = front ++ c :: found.2 ∧ c.code = ';' := by
  unfold importPath at h
  extract_lets names more at h
  have hsuffix : more <:+ source := List.dropWhile_suffix _
  split at h
  · simp at h
  · split at h
    next behind hbehind =>
      obtain rfl := Option.some.inj h
      obtain ⟨front, c, hmore, hc⟩ := exists_of_behindSemicolon hbehind
      obtain ⟨front, hfront⟩ := exists_of_suffix front hsuffix hmore
      exact ⟨front, c, hfront, hc⟩
    · split at h
      next star behind _ _ hmore =>
        split at h
        · obtain ⟨last, hlast, rfl⟩ := Option.map_eq_some_iff.1 h
          obtain ⟨front, c, hbehind, hc⟩ := exists_of_behindSemicolon hlast
          rw [hbehind] at hmore
          obtain ⟨front, hfront⟩ := exists_of_suffix (star :: front) hsuffix hmore
          exact ⟨front, c, hfront, hc⟩
        · simp at h
      · simp at h

/-- **What follows an import follows a semicolon.** -/
theorem exists_of_importAt {found : String × Source} (h : importAt source = some found) :
    ∃ front c, source = front ++ c :: found.2 ∧ c.code = ';' := by
  unfold importAt at h
  obtain ⟨more, hmore, h⟩ := Option.bind_eq_some_iff.1 h
  obtain ⟨blanks, hword, hblanks⟩ := Option.bind_eq_some_iff.1 hmore
  have hsuffix : more <:+ source :=
    (behindBlanks_suffix hblanks).trans ((behindWord_suffix hword).trans (List.dropWhile_suffix _))
  split at h
  next path behind hstatic =>
    obtain ⟨names, hnames, hpath⟩ := Option.bind_eq_some_iff.1 hstatic
    obtain ⟨blanks, hword, hblanks⟩ := Option.bind_eq_some_iff.1 hnames
    obtain rfl := Option.some.inj h
    obtain ⟨front, c, hcut, hc⟩ := exists_of_importPath hpath
    obtain ⟨front, hcut⟩ :=
      exists_of_suffix front
        (((behindBlanks_suffix hblanks).trans (behindWord_suffix hword)).trans hsuffix) hcut
    exact ⟨front, c, hcut, hc⟩
  · obtain ⟨found, hpath, rfl⟩ := Option.map_eq_some_iff.1 h
    obtain ⟨front, c, hcut, hc⟩ := exists_of_importPath hpath
    obtain ⟨front, hcut⟩ := exists_of_suffix front hsuffix hcut
    exact ⟨front, c, hcut, hc⟩

/-! ## One step of the search -/

theorem importsFrom_cons_of_some {found : String × Source} (h : importAt (c :: rest) = some found) :
    importsFrom true (c :: rest) = (found.1 :: (importsFrom false found.2).1,
      some ((importsFrom false found.2).2.getD found.2)) := by
  rw [importsFrom]
  split
  next name behind heq =>
    rw [if_pos rfl, h] at heq
    obtain rfl := Option.some.inj heq
    rfl
  next heq =>
    rw [if_pos rfl, h] at heq
    exact absurd heq (by simp)

theorem importsFrom_cons_of_none {lineStart : Bool}
    (h : lineStart = true → importAt (c :: rest) = none) :
    importsFrom lineStart (c :: rest) = importsFrom (c.code == '\n') rest := by
  have hnone : (if lineStart = true then importAt (c :: rest) else none) = none := by
    split
    next hstart => exact h hstart
    · rfl
  rw [importsFrom]
  split
  next name behind heq =>
    rw [hnone] at heq
    exact absurd heq (by simp)
  · rfl

/-- Where no semicolon follows there are no imports. -/
theorem importsFrom_of_no_semicolon (h : ∀ c ∈ source, c.code ≠ ';') (lineStart : Bool) :
    importsFrom lineStart source = ([], none) := by
  induction source generalizing lineStart with
  | nil => rw [importsFrom]
  | cons c source ih =>
    rw [importsFrom_cons_of_none, ih fun d hd => h d (List.mem_cons_of_mem c hd)]
    intro _
    cases hat : importAt (c :: source) with
    | none => rfl
    | some found =>
      obtain ⟨front, d, hcut, hd⟩ := exists_of_importAt hat
      exact absurd hd (h d (hcut ▸ by simp))

/-- **What follows the last import follows a semicolon.** -/
theorem exists_of_importsFrom {lineStart : Bool}
    (h : (importsFrom lineStart source).2 = some behind) :
    ∃ front c, source = front ++ c :: behind ∧ c.code = ';' := by
  induction hlength : source.length using Nat.strong_induction_on generalizing source lineStart with
  | h n ih =>
    cases source with
    | nil =>
      rw [importsFrom] at h
      simp at h
    | cons c source =>
      by_cases hat : ∃ found, lineStart = true ∧ importAt (c :: source) = some found
      · obtain ⟨found, rfl, hfound⟩ := hat
        rw [importsFrom_cons_of_some hfound] at h
        obtain ⟨front, d, hcut, hd⟩ := exists_of_importAt hfound
        cases hlast : (importsFrom false found.2).2 with
        | none =>
          rw [hlast] at h
          obtain rfl := Option.some.inj h
          exact ⟨front, d, hcut, hd⟩
        | some last =>
          rw [hlast] at h
          obtain rfl := Option.some.inj h
          have hshorter : found.2.length < n := by
            rw [← hlength, hcut]
            simp
            omega
          obtain ⟨more, e, hmore, he⟩ := ih _ hshorter hlast rfl
          exact ⟨front ++ d :: more, e, by rw [hcut, hmore]; simp, he⟩
      · rw [importsFrom_cons_of_none fun hstart => by
          rw [Option.eq_none_iff_forall_ne_some]
          exact fun found hfound => hat ⟨found, hstart, hfound⟩] at h
        obtain ⟨front, d, rfl, hd⟩ := ih _ (by rw [← hlength]; simp) h rfl
        exact ⟨c :: front, d, rfl, hd⟩

/-- What follows the package line follows a semicolon. -/
theorem exists_of_behindPackage (h : behindPackage source = some behind) :
    ∃ front c, source = front ++ c :: behind ∧ c.code = ';' := by
  induction source with
  | nil => simp [behindPackage] at h
  | cons c source ih =>
    rw [behindPackage] at h
    split at h
    · split at h
      · simp at h
      next d more hdrop =>
        obtain rfl := Option.some.inj h
        obtain ⟨front, hfront⟩ := exists_of_suffix [] (List.dropWhile_suffix _) hdrop
        have hhead := List.head?_dropWhile_not (fun d : SourceChar => d.code != ';') (c :: source)
        rw [hdrop] at hhead
        exact ⟨front, d, hfront, by simpa using hhead⟩
    · obtain ⟨front, d, rfl, hd⟩ := ih h
      exact ⟨c :: front, d, rfl, hd⟩

/-- What follows a semicolon of a text holds all annotations of its end, if
there are none in front of it and the end holds no semicolon. -/
theorem marksFrom_behind {front head : Source} (hfront : ∀ c ∈ front, c.code ≠ '@')
    (hhead : ∀ c ∈ head, c.code ≠ ';') {before : Source}
    (hcut : front ++ head = before ++ c :: behind)
    (hc : c.code = ';') : marksFrom 0 behind = marksFrom 0 head := by
  rcases List.append_eq_append_iff.1 hcut with ⟨between, -, rfl⟩ | ⟨between, rfl, hbehind⟩
  · -- the semicolon would stand in the end
    exact absurd hc (hhead c (by simp))
  · cases between with
    | nil =>
      exact absurd hc (hhead c
        (by rw [← List.nil_append head, ← hbehind]; exact List.mem_cons_self))
    | cons d between =>
      obtain ⟨rfl, rfl⟩ := List.cons.inj hbehind
      exact marksFrom_append (fun e he => hfront e (by simp [he])) head

/-- **The annotations are those behind the imports**, whatever imports are
found, and if none is. -/
theorem marksFrom_behindPrelude {front head : Source} (hfront : ∀ c ∈ front, c.code ≠ '@')
    (hhead : ∀ c ∈ head, c.code ≠ ';') :
    marksFrom 0 (((importsFrom true (front ++ head)).2.or (behindPackage (front ++ head))).getD
      (front ++ head))
      = marksFrom 0 head := by
  cases hor : (importsFrom true (front ++ head)).2.or (behindPackage (front ++ head)) with
  | none => exact marksFrom_append hfront head
  | some behind =>
    rcases Option.or_eq_some_iff.1 hor with hbehind | ⟨-, hbehind⟩
    · obtain ⟨before, c, hcut, hc⟩ := exists_of_importsFrom hbehind
      exact marksFrom_behind hfront hhead hcut hc
    · obtain ⟨before, c, hcut, hc⟩ := exists_of_behindPackage hbehind
      exact marksFrom_behind hfront hhead hcut hc

/-! ## A written import -/

theorem isPathChar_of_isNameChar {d : Char} (h : isNameChar d = true) (hd : d ≠ '$') :
    isPathChar d = true := by
  rw [isPathChar, isWordChar_of_isNameChar h hd, Bool.true_or]

theorem IsPath.forall (h : IsPath path) : ∀ c ∈ path, Text.isBlank c = false ∧ c ≠ ';' := by
  obtain ⟨name, hname, hpath⟩ := h
  have hchar : ∀ c ∈ name, Text.isBlank c = false ∧ c ≠ ';' := by
    intro c hc
    rcases hname.forall c hc with hchar | rfl
    · exact ⟨isBlank_of_isNameChar hchar, ne_of_isNameChar hchar (by decide)⟩
    · decide
  rcases hpath with rfl | rfl
  · exact hchar
  · intro c hc
    rcases List.mem_append.1 hc with hc | hc
    · exact hchar c hc
    · exact (by decide : ∀ c ∈ ['.', '*'], Text.isBlank c = false ∧ c ≠ ';') c hc

theorem IsPath.ne_nil (h : IsPath path) : path ≠ [] := by
  obtain ⟨name, hname, rfl | rfl⟩ := h
  · exact hname.ne_nil
  · simp

theorem behindSemicolon_cons (h : Text.isBlank c.code = false) (rest : Source) :
    behindSemicolon (c :: rest) = if c.code == ';' then some rest else none := by
  rw [behindSemicolon, skipBlanks, List.dropWhile_cons_of_neg (by simp [h])]

theorem behindSemicolon_blank_cons (h : Text.isBlank c.code = true) (rest : Source) :
    behindSemicolon (c :: rest) = behindSemicolon rest := by
  have hskip : skipBlanks (c :: rest) = skipBlanks rest := List.dropWhile_cons_of_pos h
  rw [behindSemicolon, behindSemicolon, hskip]

/-- The path of an import ends in front of the first character that is part
of no path. -/
theorem cut_path {names : List Char} (hnames : ∀ c ∈ names, isPathChar c = true)
    (hc : isPathChar c.code = false) (rest : Source) :
    (names.map shown ++ c :: rest).takeWhile (fun c => isPathChar c.code) = names.map shown ∧
      (names.map shown ++ c :: rest).dropWhile (fun c => isPathChar c.code) = c :: rest := by
  have hpass : ∀ d ∈ names.map shown, isPathChar d.code = true := by
    intro d hd
    obtain ⟨e, he, rfl⟩ := List.mem_map.1 hd
    exact hnames e he
  have hhead : ∀ d ∈ (c :: rest).head?, isPathChar d.code = false := by
    rintro d ⟨⟩
    exact hc
  exact ⟨takeWhile_append_of_head hpass hhead, dropWhile_append_of_head hpass hhead⟩

/-- An import that ends with a semicolon. -/
theorem importPath_semicolon {names : List Char} (hnames : ∀ c ∈ names, isPathChar c = true)
    (hne : names ≠ [])
    (rest : Source) : importPath (names.map shown ++ shown ';' :: rest) = some (names, rest) := by
  obtain ⟨htake, hdrop⟩ := cut_path hnames (show isPathChar (shown ';').code = false by decide) rest
  unfold importPath
  simp only [htake, hdrop, codes_map_shown, List.isEmpty_iff, hne, if_false, behindSemicolon_cons
    (show Text.isBlank (shown ';').code = false by decide)]
  rfl

/-- An import that ends with a star. -/
theorem importPath_star {names : List Char} (hnames : ∀ c ∈ names, isPathChar c = true)
    (hne : names ≠ [])
    (rest : Source) :
    importPath ((names ++ ['.']).map shown ++ shown '*' :: shown ';' :: rest)
      = some (names ++ ['.', '*'], rest) := by
  have hall : ∀ c ∈ names ++ ['.'], isPathChar c = true := by
    intro c hc
    rcases List.mem_append.1 hc with hc | hc
    · exact hnames c hc
    · rw [List.mem_singleton.1 hc]
      decide
  obtain ⟨htake, hdrop⟩ :=
    cut_path hall (show isPathChar (shown '*').code = false by decide) (shown ';' :: rest)
  obtain ⟨c, more, rfl⟩ := List.exists_cons_of_ne_nil hne
  have hstar : behindSemicolon (shown '*' :: shown ';' :: rest) = none :=
    behindSemicolon_cons (by decide) _
  have hsemicolon : behindSemicolon (shown ';' :: rest) = some rest :=
    behindSemicolon_cons (by decide) _
  unfold importPath
  simp only [htake, hdrop, codes_map_shown, hstar, List.getLast?_concat,
    List.dropLast_concat, hsemicolon]
  simp [SourceChar.code, shown]

/-- An import that ends with neither a semicolon nor a star is none. -/
theorem importPath_eq_none {names : List Char} (hnames : ∀ c ∈ names, isPathChar c = true)
    (hc : isPathChar c.code = false) (hsemicolon : behindSemicolon (c :: rest) = none)
    (hstar : c.code ≠ '*') :
    importPath (names.map shown ++ c :: rest) = none := by
  obtain ⟨htake, hdrop⟩ := cut_path hnames hc rest
  unfold importPath
  simp only [htake, hdrop, codes_map_shown, hsemicolon]
  split
  · rfl
  · split
    next star behind _ _ hrest =>
      obtain ⟨rfl, -⟩ := List.cons.inj hrest
      rw [if_neg (by simpa using hstar)]
    · rfl

/-- **The path of an import is read as it was written**, if it has no dollar
sign. -/
theorem importPath_of_isPath (h : IsPath path) (hdollar : '$' ∉ path) (rest : Source) :
    importPath ((path ++ [';']).map shown ++ rest) = some (path, rest) := by
  obtain ⟨name, hname, hpath⟩ := h
  have hchars : '$' ∉ name → ∀ c ∈ name, isPathChar c = true := by
    intro hdollar c hc
    rcases hname.forall c hc with hchar | rfl
    · exact isPathChar_of_isNameChar hchar fun heq => hdollar (heq ▸ hc)
    · decide
  rcases hpath with rfl | rfl
  · rw [List.map_append, List.append_assoc]
    exact importPath_semicolon (hchars hdollar) hname.ne_nil rest
  · have hcut : (name ++ ['.', '*'] ++ [';']).map shown ++ rest
        = (name ++ ['.']).map shown ++ shown '*' :: shown ';' :: rest := by
      simp
    rw [hcut]
    exact importPath_star (hchars fun hmem => hdollar (List.mem_append_left _ hmem))
      hname.ne_nil rest

/-- A path with a dollar sign is none. -/
theorem importPath_of_dollar (h : IsPath path) (hdollar : '$' ∈ path) (rest : Source) :
    importPath ((path ++ [';']).map shown ++ rest) = none := by
  obtain ⟨name, hname, hpath⟩ := h
  have hmem : '$' ∈ name := by
    rcases hpath with rfl | rfl
    · exact hdollar
    · simpa using hdollar
  obtain ⟨front, behind, rfl, hfront⟩ := List.eq_append_cons_of_mem hmem
  have hchars : ∀ c ∈ front, isPathChar c = true := by
    intro c hc
    rcases hname.forall c (List.mem_append_left _ hc) with hchar | rfl
    · exact isPathChar_of_isNameChar hchar fun heq => hfront (heq ▸ hc)
    · decide
  have hnone : ∀ more, importPath (front.map shown ++ shown '$' :: more) = none := fun more =>
    importPath_eq_none hchars (by decide)
      (by rw [behindSemicolon_cons (by decide)]; rfl) (by decide)
  rcases hpath with rfl | rfl
  · rw [List.append_assoc, List.map_append, List.append_assoc]
    exact hnone _
  · rw [List.append_assoc, List.append_assoc, List.map_append, List.append_assoc]
    exact hnone _

theorem IsPath.head (h : IsPath path) : ∃ c cs, path = c :: cs ∧ Text.isBlank c = false := by
  obtain ⟨c, cs, rfl⟩ := List.exists_cons_of_ne_nil h.ne_nil
  exact ⟨c, cs, rfl, (h.forall c List.mem_cons_self).1⟩

/-- A path is no static import, whatever it begins with. -/
theorem behindStatic_eq_none (h : IsPath path) (rest : Source) :
    (behindWord "static".toList ((path ++ [';']).map shown ++ rest)).bind behindBlanks = none := by
  cases hword : behindWord "static".toList ((path ++ [';']).map shown ++ rest) with
  | none => rfl
  | some behind =>
    have hbegins : "static".toList.isPrefixOf path = true := by
      unfold behindWord at hword
      split at hword
      next hbegins =>
        rwa [codes_append, codes_map_shown, List.append_assoc, List.singleton_append,
          isPrefixOf_append_cons (by decide)] at hbegins
      · simp at hword
    obtain ⟨more, rfl⟩ := List.isPrefixOf_iff_prefix.1 hbegins
    rw [List.append_assoc, behindWord_map_shown] at hword
    obtain rfl := Option.some.inj hword
    -- what stands behind the word is no blank
    cases more with
    | nil => rfl
    | cons c more =>
      have hc : Text.isBlank c = false := (h.forall c (by simp)).1
      show (if Text.isBlank c = true then _ else none) = none
      rw [if_neg (by simp [hc])]

/-- **An import at the beginning of a line.** -/
theorem importAt_written {name : String} (h : IsImport name.toList) (rest : Source) :
    importAt (("import".toList ++ ' ' :: (name.toList ++ [';'])).map shown ++ rest)
      = if isReadable name then some (name, rest) else none := by
  have hstart : ∃ c cs, name.toList ++ [';'] = c :: cs ∧ Text.isBlank c = false := by
    rcases h with hpath | ⟨path, -, hname⟩
    · obtain ⟨c, cs, hname, hc⟩ := hpath.head
      exact ⟨c, cs ++ [';'], by rw [hname]; rfl, hc⟩
    · exact ⟨'s', "tatic ".toList ++ path ++ [';'], by rw [hname]; rfl, by decide⟩
  have hskip : skipBlanks (("import".toList ++ ' ' :: (name.toList ++ [';'])).map shown ++ rest)
      = ("import".toList ++ ' ' :: (name.toList ++ [';'])).map shown ++ rest :=
    List.dropWhile_cons_of_neg (by decide)
  unfold importAt
  rw [hskip, behindWord_map_shown, Option.bind_some, behindBlanks_map_shown hstart,
    Option.bind_some]
  -- a path without the word `static` in front, and one with it; a `$` stops the reading of either
  rcases h with hpath | ⟨path, hpath, hname⟩
  · rw [behindStatic_eq_none hpath, Option.bind_none]
    by_cases hdollar : '$' ∈ name.toList
    · rw [importPath_of_dollar hpath hdollar, if_neg (by simp [isReadable, hdollar])]
      rfl
    · rw [importPath_of_isPath hpath hdollar, if_pos (by simp [isReadable, hdollar])]
      simp
  · have hword : name.toList ++ [';'] = "static".toList ++ ' ' :: (path ++ [';']) := by
      rw [hname]
      simp
    have hpathStart : ∃ c cs, path ++ [';'] = c :: cs ∧ Text.isBlank c = false := by
      obtain ⟨c, cs, rfl, hc⟩ := hpath.head
      exact ⟨c, cs ++ [';'], rfl, hc⟩
    have hdollarName : '$' ∈ name.toList ↔ '$' ∈ path := by
      rw [hname]
      simp
    rw [hword, behindWord_map_shown, Option.bind_some, behindBlanks_map_shown hpathStart,
      Option.bind_some]
    by_cases hdollar : '$' ∈ path
    · rw [importPath_of_dollar hpath hdollar, if_neg (by simp [isReadable, hdollarName, hdollar])]
      have hnone : importPath
          (("static".toList ++ ' ' :: (path ++ [';'])).map shown ++ rest) = none := by
        rw [List.map_append, List.append_assoc]
        refine importPath_eq_none (by decide) (by decide) ?_ (by decide)
        obtain ⟨c, cs, hcut, hc⟩ := hpathStart
        have hsemicolon : c ≠ ';' := by
          obtain ⟨d, ds, rfl⟩ := List.exists_cons_of_ne_nil hpath.ne_nil
          obtain ⟨rfl, -⟩ := List.cons.inj hcut
          exact (hpath.forall _ List.mem_cons_self).2
        rw [hcut]
        show behindSemicolon (shown ' ' :: shown c :: (cs.map shown ++ rest)) = none
        rw [behindSemicolon_blank_cons (by decide),
          behindSemicolon_cons (show Text.isBlank (shown c).code = false from hc), if_neg]
        simpa [shown, SourceChar.code] using hsemicolon
      simp only [hnone, Option.map_none]
    · rw [importPath_of_isPath hpath hdollar, if_pos (by simp [isReadable, hdollarName, hdollar])]
      have hname : "static " ++ String.ofList path = name := by
        rw [← String.toList_inj, hname]
        simp
      simp only [hname]

/-! ## The lines of a written file -/

/-- Within a line no import begins. -/
theorem importsFrom_inline (h : ∀ c ∈ source, c.code ≠ '\n') (rest : Source) :
    importsFrom false (source ++ rest) = importsFrom false rest := by
  induction source with
  | nil => rfl
  | cons c source ih =>
    have hc : (c.code == '\n') = false := by simpa using h c List.mem_cons_self
    rw [List.cons_append, importsFrom_cons_of_none fun hstart => absurd hstart (by simp), hc]
    exact ih fun d hd => h d (List.mem_cons_of_mem c hd)

theorem importsFrom_line (h : ∀ c ∈ source, c.code ≠ '\n') (rest : Source) :
    importsFrom false (source ++ shown '\n' :: rest) = importsFrom true rest := by
  rw [importsFrom_inline h]
  exact importsFrom_cons_of_none fun hstart => absurd hstart (by simp)

/-- A line with no import. -/
theorem importsFrom_other_line (h : ∀ d ∈ c :: source, d.code ≠ '\n')
    (hnone : importAt (c :: source ++ shown '\n' :: rest) = none) :
    importsFrom true (c :: source ++ shown '\n' :: rest) = importsFrom true rest := by
  have hc : (c.code == '\n') = false := by simpa using h c List.mem_cons_self
  rw [List.cons_append] at hnone ⊢
  rw [importsFrom_cons_of_none fun _ => hnone, hc]
  exact importsFrom_line (fun d hd => h d (List.mem_cons_of_mem c hd)) rest

/-- An empty line. -/
theorem importsFrom_blank_line (rest : Source) :
    importsFrom true (shown '\n' :: rest) = importsFrom true rest := by
  have hskip : importAt (shown '\n' :: rest) = importAt rest := by
    unfold importAt skipBlanks
    rw [List.dropWhile_cons_of_pos (by decide)]
  cases hat : importAt rest with
  | none =>
    rw [importsFrom_cons_of_none fun _ => by rw [hskip, hat]]
    rfl
  | some found =>
    obtain ⟨c, more, rfl⟩ : ∃ c more, rest = c :: more := by
      cases rest with
      | nil =>
        have hnil : importAt [] = none := by decide
        exact absurd (hnil.symm.trans hat) (by simp)
      | cons c more => exact ⟨c, more, rfl⟩
    rw [importsFrom_cons_of_some (by rw [hskip, hat]), importsFrom_cons_of_some hat]

/-- Imports, one to a line. -/
def importLines (names : List String) : List Char :=
  names.flatMap fun name => "import".toList ++ ' ' :: (name.toList ++ [';']) ++ ['\n']

theorem IsImport.forall (h : IsImport cs) : ∀ c ∈ cs, c ≠ '\n' ∧ c ≠ '@' ∧ isInert c = true := by
  have hpath : ∀ {path : List Char}, IsPath path → ∀ c ∈ path, c ≠ '\n' ∧ c ≠ '@' ∧
      isInert c = true := by
    rintro path ⟨name, hname, hpath⟩ c hc
    have hchar : ∀ d ∈ name ++ ['.', '*'], d ≠ '\n' ∧ d ≠ '@' ∧ isInert d = true := by
      intro d hd
      rcases List.mem_append.1 hd with hd | hd
      · rcases hname.forall d hd with hchar | rfl
        · have hne := fun {e : Char} (he : isNameChar e = false) => ne_of_isNameChar hchar he
          exact ⟨hne (by decide), hne (by decide), by simp [isInert, hne (e := '"') (by decide),
            hne (e := '\x27') (by decide), hne (e := '/') (by decide)]⟩
        · decide
      · exact (by decide : ∀ d ∈ ['.', '*'], d ≠ '\n' ∧ d ≠ '@' ∧ isInert d = true) d hd
    rcases hpath with rfl | rfl
    · exact hchar c (List.mem_append_left _ hc)
    · exact hchar c hc
  rcases h with h | ⟨path, h, rfl⟩
  · exact hpath h
  · intro c hc
    rcases List.mem_append.1 hc with hc | hc
    · exact (by decide : ∀ c ∈ "static ".toList, c ≠ '\n' ∧ c ≠ '@' ∧ isInert c = true) c hc
    · exact hpath h c hc

variable {names : List String}

/-- **The imports that are written one to a line are read in order**, as far
as they are recognised. -/
theorem importsFrom_importLines (h : ∀ name ∈ names, IsImport name.toList) (rest : Source) :
    (importsFrom true ((importLines names).map shown ++ rest)).1
      = names.filter isReadable ++ (importsFrom true rest).1 := by
  induction names with
  | nil => rfl
  | cons name names ih =>
    have hname := h name List.mem_cons_self
    have hnames := ih fun other hother => h other (List.mem_cons_of_mem name hother)
    have hcut : (importLines (name :: names)).map shown ++ rest
        = ("import".toList ++ ' ' :: (name.toList ++ [';'])).map shown ++
            shown '\n' :: ((importLines names).map shown ++ rest) := by
      simp [importLines]
    have hat := importAt_written hname (shown '\n' :: ((importLines names).map shown ++ rest))
    have hline : ∀ d ∈ ("import".toList ++ ' ' :: (name.toList ++ [';'])).map shown,
        d.code ≠ '\n' := by
      intro d hd
      obtain ⟨e, he, rfl⟩ := List.mem_map.1 hd
      show e ≠ '\n'
      simp only [List.mem_append, List.mem_cons, List.not_mem_nil, or_false] at he
      rcases he with he | rfl | he | rfl
      · exact (by decide : ∀ e ∈ "import".toList, e ≠ '\n') e he
      · decide
      · exact (hname.forall e he).1
      · decide
    obtain ⟨c, more, hword⟩ : ∃ c more,
        ("import".toList ++ ' ' :: (name.toList ++ [';'])).map shown = c :: more :=
      ⟨shown 'i', _, rfl⟩
    rw [hcut]
    rw [hword] at hat hline ⊢
    -- an import that is not readable is passed over up to the end of its line
    by_cases hreadable : isReadable name = true
    · rw [if_pos hreadable] at hat
      have hnext : importsFrom false (shown '\n' :: ((importLines names).map shown ++ rest))
          = importsFrom true ((importLines names).map shown ++ rest) :=
        importsFrom_cons_of_none fun hstart => absurd hstart (by simp)
      rw [List.cons_append] at hat ⊢
      rw [List.filter_cons_of_pos hreadable, importsFrom_cons_of_some hat, hnext, hnames]
      rfl
    · rw [if_neg hreadable] at hat
      rw [List.filter_cons_of_neg hreadable, ← hnames, importsFrom_other_line hline hat]

end

end TableMapper.Source
