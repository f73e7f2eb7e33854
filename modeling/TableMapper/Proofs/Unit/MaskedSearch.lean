import TableMapper.Proofs.Unit.Imports

/-!
# Searching the masked text

A merge looks for the declaration, the imports and the annotations of a file in
its masked text, where all characters are code and a hidden character is one
blank for each of its bytes (`masked`). What it looks for begins with no blank,
and where blanks may stand in it one is as good as several. **So everything is
found in the masked text where it is in the file**: the declaration
(`findDeclaration_masked`), the imports (`importsFrom_masked`) and every
annotation (`markAt_masked`), each with what is in front of it and behind it
masked.
-/

namespace TableMapper.Source

/-- **The masked text of a part of a file**, all of it as code. -/
def masked (source : Source) : Source :=
  (blanked source).map shown

variable {source rest : Source} {word : List Char}

theorem code_shown (c : Char) : (shown c).code = c := rfl

theorem code_concealed (c : Char) : (concealed c).code = ' ' := rfl

@[simp] theorem masked_nil : masked [] = [] := rfl

@[simp] theorem masked_shown (c : Char) (source : Source) :
    masked (shown c :: source) = shown c :: masked source := rfl

/-- A hidden character has at least one byte. -/
theorem exists_masked_concealed (c : Char) :
    ∃ n, ∀ source, masked (concealed c :: source) = List.replicate (n + 1)
      (shown ' ') ++ masked source := by
  obtain ⟨n, hn⟩ := Nat.exists_eq_succ_of_ne_zero c.utf8Size_pos.ne'
  refine ⟨n, fun source => ?_⟩
  simp only [masked, blanked, List.flatMap_cons, concealed, if_true, List.map_append,
    List.map_replicate, hn]

@[simp] theorem masked_append (source more : Source) :
    masked (source ++ more) = masked source ++ masked more := by
  simp [masked, blanked]

theorem shown_or_concealed (c : SourceChar) : (∃ d, c = shown d) ∨ ∃ d, c = concealed d := by
  obtain ⟨d, hidden⟩ := c
  cases hidden with
  | false => exact .inl ⟨d, rfl⟩
  | true => exact .inr ⟨d, rfl⟩

/-- Only blanks are more than one character. -/
theorem exists_masked_cons (c : SourceChar) (source : Source) :
    ∃ n, masked (c :: source) = shown c.code :: (List.replicate n (shown ' ') ++ masked source) ∧
      (n ≠ 0 → c.code = ' ') := by
  obtain ⟨d, rfl⟩ | ⟨d, rfl⟩ := shown_or_concealed c
  · exact ⟨0, rfl, fun h => absurd rfl h⟩
  · obtain ⟨n, hmasked⟩ := exists_masked_concealed d
    exact ⟨n, by rw [hmasked]; rfl, fun _ => rfl⟩

/-! ## Classes of characters -/

section

variable (p : Char → Bool) (n : Nat) (source : Source)

theorem takeWhile_blanks_append :
    (List.replicate (n + 1) (shown ' ') ++ source).takeWhile (fun c => p c.code) =
      if p ' ' then
        List.replicate (n + 1) (shown ' ') ++ source.takeWhile (fun c => p c.code)
      else [] := by
  cases hp : p ' ' with
  | true =>
    exact List.takeWhile_append_of_pos fun c hc => by
      rw [List.eq_of_mem_replicate hc, code_shown, hp]
  | false => simp [List.replicate_succ, code_shown, hp]

theorem dropWhile_blanks_append :
    (List.replicate (n + 1) (shown ' ') ++ source).dropWhile (fun c => p c.code) =
      if p ' ' then source.dropWhile (fun c => p c.code)
      else List.replicate (n + 1) (shown ' ') ++ source := by
  cases hp : p ' ' with
  | true =>
    exact List.dropWhile_append_of_pos fun c hc => by
      rw [List.eq_of_mem_replicate hc, code_shown, hp]
  | false => simp [List.replicate_succ, code_shown, hp]

theorem takeWhile_masked :
    (masked source).takeWhile (fun c => p c.code)
      = masked (source.takeWhile fun c => p c.code) := by
  induction source with
  | nil => rfl
  | cons c source ih =>
    obtain ⟨d, rfl⟩ | ⟨d, rfl⟩ := shown_or_concealed c
    · rw [masked_shown, List.takeWhile_cons, List.takeWhile_cons, ih]
      split <;> rfl
    · obtain ⟨n, hmasked⟩ := exists_masked_concealed d
      rw [hmasked, takeWhile_blanks_append, ih, List.takeWhile_cons, code_concealed]
      split
      · exact (hmasked _).symm
      · rfl

theorem dropWhile_masked :
    (masked source).dropWhile (fun c => p c.code)
      = masked (source.dropWhile fun c => p c.code) := by
  induction source with
  | nil => rfl
  | cons c source ih =>
    obtain ⟨d, rfl⟩ | ⟨d, rfl⟩ := shown_or_concealed c
    · rw [masked_shown, List.dropWhile_cons, List.dropWhile_cons, ih]
      split <;> rfl
    · obtain ⟨n, hmasked⟩ := exists_masked_concealed d
      rw [hmasked, dropWhile_blanks_append, ih, List.dropWhile_cons, code_concealed]
      split
      · rfl
      · exact (hmasked _).symm

end

/-- A text without hidden characters is masked as it is. -/
theorem masked_of_forall (h : ∀ c ∈ source, c.code ≠ ' ') : masked source = source := by
  induction source with
  | nil => rfl
  | cons c source ih =>
    obtain ⟨d, rfl⟩ | ⟨d, rfl⟩ := shown_or_concealed c
    · rw [masked_shown, ih fun e he => h e (List.mem_cons_of_mem _ he)]
    · exact absurd rfl (h _ List.mem_cons_self)

theorem takeWhile_masked_of_ne {p : Char → Bool} (hp : p ' ' = false) (source : Source) :
    (masked source).takeWhile (fun c => p c.code) = source.takeWhile fun c => p c.code := by
  rw [takeWhile_masked]
  refine masked_of_forall fun c hc heq => ?_
  have hpass : p c.code = true := (List.mem_takeWhile_imp hc :)
  rw [heq, hp] at hpass
  cases hpass

theorem takeWhile_blanked (p : Char → Bool) (source : Source) :
    source.blanked.takeWhile p = blanked (source.takeWhile fun c => p c.code) := by
  have hmasked := congrArg chars (takeWhile_masked p source)
  rwa [masked, masked, List.takeWhile_map, chars_map_shown, chars_map_shown] at hmasked

theorem dropWhile_blanked (p : Char → Bool) (source : Source) :
    source.blanked.dropWhile p = blanked (source.dropWhile fun c => p c.code) := by
  have hmasked := congrArg chars (dropWhile_masked p source)
  rwa [masked, masked, List.dropWhile_map, chars_map_shown, chars_map_shown] at hmasked

/-! ## Words -/

theorem behindWord_cons (d : Char) (word : List Char) (c : SourceChar) (source : Source) :
    behindWord (d :: word) (c :: source) = if d = c.code then behindWord word source else none := by
  rw [behindWord, behindWord, codes_cons, List.isPrefixOf_cons_cons]
  by_cases hd : d = c.code
  · simp [hd]
  · simp [hd]

theorem behindWord_masked (h : ' ' ∉ word) (source : Source) :
    behindWord word (masked source) = (behindWord word source).map masked := by
  induction word generalizing source with
  | nil => rfl
  | cons d word ih =>
    have hd : d ≠ ' ' := fun heq => h (heq ▸ List.mem_cons_self)
    have hword : ' ' ∉ word := fun hmem => h (List.mem_cons_of_mem d hmem)
    cases source with
    | nil => rfl
    | cons c source =>
      rw [behindWord_cons]
      obtain ⟨e, rfl⟩ | ⟨e, rfl⟩ := shown_or_concealed c
      · rw [masked_shown, behindWord_cons, ih hword]
        split <;> rfl
      · obtain ⟨n, hmasked⟩ := exists_masked_concealed e
        rw [hmasked, List.replicate_succ, List.cons_append, behindWord_cons, code_shown,
          code_concealed, if_neg hd, if_neg hd]
        rfl

theorem skipBlanks_masked (source : Source) :
    skipBlanks (masked source) = masked (skipBlanks source) :=
  dropWhile_masked Text.isBlank source

theorem behindBlanks_masked (source : Source) :
    behindBlanks (masked source) = (behindBlanks source).map masked := by
  cases source with
  | nil => rfl
  | cons c source =>
    obtain ⟨d, rfl⟩ | ⟨d, rfl⟩ := shown_or_concealed c
    · rw [masked_shown, behindBlanks, behindBlanks, dropWhile_masked Text.isBlank source]
      split <;> rfl
    · obtain ⟨n, hmasked⟩ := exists_masked_concealed d
      rw [hmasked, List.replicate_succ, List.cons_append, behindBlanks, behindBlanks, code_shown,
        code_concealed, if_pos (by decide), if_pos (by decide), Option.map_some,
        ← dropWhile_masked Text.isBlank source]
      cases n with
      | zero => rfl
      | succ n =>
        rw [dropWhile_blanks_append]
        rfl

theorem behindName_masked (source : Source) :
    behindName (masked source) = (behindName source).map masked := by
  cases source with
  | nil => rfl
  | cons c source =>
    obtain ⟨d, rfl⟩ | ⟨d, rfl⟩ := shown_or_concealed c
    · rw [masked_shown, behindName, behindName, dropWhile_masked isNamePart source]
      split <;> rfl
    · obtain ⟨n, hmasked⟩ := exists_masked_concealed d
      rw [hmasked]
      rfl

/-! ## The declaration -/

/-- A declaration in its masked file. -/
def Declaration.masked (d : Declaration) : Declaration :=
  ⟨d.kind, Source.masked d.prelude, Source.masked d.rest⟩

theorem declarationAt_masked (wordBefore : Bool) (source : Source) :
    declarationAt wordBefore (masked source)
    = (declarationAt wordBefore source).map fun found => (found.1, masked found.2) := by
  rw [declarationAt, declarationAt, List.map_findSome?]
  congr 1
  funext kind
  have hword : ' ' ∉ kind.keyword.toList := by
    cases kind <;> decide
  rw [Function.comp_apply]
  split
  · rw [behindWord_masked hword]
    cases behindWord kind.keyword.toList source with
    | none => rfl
    | some blanks =>
      simp only [Option.map_some, Option.bind_some]
      rw [behindBlanks_masked]
      cases behindBlanks blanks with
      | none => rfl
      | some name =>
        simp only [Option.map_some, Option.bind_some]
        rw [behindName_masked, Option.map_map, Option.map_map]
        rfl
  · rfl

/-- A blank is no part of a word, as little as a hidden character is. -/
theorem any_head?_masked {before seen : Source} (h : seen.reverse = masked before.reverse) :
    (seen.head?.any fun d => Text.isWordChar d.code) = before.head?.any fun d =>
  Text.isWordChar d.code := by
  rw [List.reverse_eq_iff.1 h]
  cases before with
  | nil => rfl
  | cons c before =>
    rw [List.reverse_cons, masked_append, List.reverse_append]
    obtain ⟨d, rfl⟩ | ⟨d, rfl⟩ := shown_or_concealed c
    · rfl
    · obtain ⟨n, hmasked⟩ := exists_masked_concealed d
      rw [hmasked, masked_nil, List.append_nil, List.reverse_replicate]
      rfl

/-- **The declaration of the masked text is the one of the file.** -/
theorem findDeclaration_masked {before seen : Source} (h : seen.reverse = masked before.reverse)
    (source : Source) :
    findDeclaration seen (masked source)
      = (findDeclaration before source).map Declaration.masked := by
  induction source generalizing before seen with
  | nil => rfl
  | cons c source ih =>
    obtain ⟨d, rfl⟩ | ⟨d, rfl⟩ := shown_or_concealed c
    · have hat := declarationAt_masked (before.head?.any fun d => Text.isWordChar d.code)
        (shown d :: source)
      rw [masked_shown] at hat ⊢
      rw [← any_head?_masked h] at hat
      cases hfound : declarationAt (before.head?.any fun d => Text.isWordChar d.code)
        (shown d :: source) with
      | none =>
        rw [any_head?_masked h, hfound, ← any_head?_masked h] at hat
        rw [findDeclaration_cons_of_none hat, findDeclaration_cons_of_none hfound]
        exact ih (by rw [List.reverse_cons, List.reverse_cons, masked_append, h]; rfl)
      | some found =>
        rw [any_head?_masked h, hfound, ← any_head?_masked h] at hat
        rw [findDeclaration_cons_of_some hat, findDeclaration_cons_of_some hfound, h]
        rfl
    · obtain ⟨n, hmasked⟩ := exists_masked_concealed d
      have hblanks : Idle (List.replicate (n + 1) (shown ' ')) :=
        idle_blank fun c hc => by rw [List.eq_of_mem_replicate hc]; decide
      have hhidden : Idle [concealed d] :=
        idle_blank fun c hc => by rw [List.mem_singleton.1 hc, code_concealed]; decide
      rw [hmasked, hblanks, ← List.singleton_append, hhidden]
      refine ih ?_
      rw [List.reverse_append, List.reverse_append, List.reverse_reverse, List.reverse_reverse,
        masked_append, h, hmasked, masked_nil, List.append_nil]

/-! ## Imports -/

theorem behindSemicolon_masked (source : Source) :
    behindSemicolon (masked source) = (behindSemicolon source).map masked := by
  unfold behindSemicolon
  rw [skipBlanks_masked]
  cases skipBlanks source with
  | nil => rfl
  | cons c rest =>
    obtain ⟨d, rfl⟩ | ⟨d, rfl⟩ := shown_or_concealed c
    · rw [masked_shown]
      show (if _ then _ else _) = Option.map _ (if _ then _ else _)
      split <;> rfl
    · obtain ⟨n, hmasked⟩ := exists_masked_concealed d
      rw [hmasked]
      rfl

theorem importPath_masked (source : Source) : importPath (masked source)
    = (importPath source).map fun found => (found.1, masked found.2) := by
  unfold importPath
  rw [takeWhile_masked_of_ne (by decide), dropWhile_masked isPathChar]
  generalize codes (source.takeWhile fun c => isPathChar c.code) = path
  generalize source.dropWhile (fun c => isPathChar c.code) = rest
  simp only [behindSemicolon_masked]
  split
  · rfl
  · cases behindSemicolon rest with
    | some behind => rfl
    | none =>
      simp only [Option.map_none]
      -- only a path that ends with a dot goes on with a star
      generalize path.getLast? = last
      generalize path.dropLast = front
      by_cases hdot : last = some '.'
      · subst hdot
        obtain _ | ⟨first, front⟩ := front
        · rfl
        · cases rest with
          | nil => rfl
          | cons c rest =>
            obtain ⟨d, rfl⟩ | ⟨d, rfl⟩ := shown_or_concealed c
            · simp only [masked_shown, behindSemicolon_masked, Option.map_map]
              split
              · simp only [Option.map_map]
                rfl
              · rfl
            · obtain ⟨n, hmasked⟩ := exists_masked_concealed d
              rw [hmasked]
              rfl
      · simp [hdot]

theorem behindWord_bind_masked (h : ' ' ∉ word) (source : Source) :
    (behindWord word (masked source)).bind behindBlanks
      = ((behindWord word source).bind behindBlanks).map masked := by
  rw [behindWord_masked h]
  cases behindWord word source with
  | none => rfl
  | some rest => exact behindBlanks_masked rest

theorem importAt_masked (source : Source) : importAt (masked source)
    = (importAt source).map fun found => (found.1, masked found.2) := by
  have himport : ' ' ∉ "import".toList := by decide
  have hstatic : ' ' ∉ "static".toList := by decide
  unfold importAt
  rw [skipBlanks_masked, behindWord_bind_masked himport]
  cases (behindWord "import".toList (skipBlanks source)).bind behindBlanks with
  | none => rfl
  | some rest =>
    simp only [Option.map_some, Option.bind_some]
    rw [behindWord_bind_masked hstatic, importPath_masked]
    generalize (behindWord "static".toList rest).bind behindBlanks = names
    have hnames : (names.map masked).bind importPath
        = (names.bind importPath).map fun found => (found.1, masked found.2) := by
      cases names with
      | none => rfl
      | some names => exact importPath_masked names
    rw [hnames]
    cases names.bind importPath with
    | none =>
      simp only [Option.map_none, Option.map_map]
      rfl
    | some found => rfl

/-- **The imports of the masked text are those of the file.** -/
theorem importsFrom_masked (lineStart : Bool) (source : Source) :
    importsFrom lineStart (masked source)
    = ((importsFrom lineStart source).1, (importsFrom lineStart source).2.map masked) := by
  induction hlength : source.length using Nat.strong_induction_on generalizing source lineStart with
  | h n ih =>
    cases source with
    | nil =>
      rw [masked_nil, importsFrom]
      rfl
    | cons c source =>
      obtain ⟨blanks, hmasked, hblanks⟩ := exists_masked_cons c source
      have hat := importAt_masked (c :: source)
      rw [hmasked] at hat ⊢
      by_cases hfound : ∃ found, lineStart = true ∧ importAt (c :: source) = some found
      · obtain ⟨found, rfl, hfound⟩ := hfound
        have hshorter : found.2.length < n := hlength ▸ importAt_length hfound
        rw [hfound] at hat
        rw [importsFrom_cons_of_some hat, importsFrom_cons_of_some hfound]
        simp only [ih _ hshorter false found.2 rfl]
        cases (importsFrom false found.2).2 <;> rfl
      · have hnone : lineStart = true → importAt (c :: source) = none := by
          rw [Option.eq_none_iff_forall_ne_some]
          exact fun hstart found h => hfound ⟨found, hstart, h⟩
        have hpass : importsFrom (c.code == '\n')
            (List.replicate blanks (shown ' ') ++ masked source)
            = importsFrom (c.code == '\n') (masked source) := by
          cases blanks with
          | zero => rfl
          | succ blanks =>
            rw [hblanks (Nat.succ_ne_zero _)]
            exact importsFrom_inline
              (fun d hd => by rw [List.eq_of_mem_replicate hd]; decide) _
        rw [importsFrom_cons_of_none fun hstart => by rw [hat, hnone hstart]; rfl,
          importsFrom_cons_of_none hnone, code_shown, hpass]
        exact ih _ (hlength ▸ Nat.lt_succ_self _) _ source rfl

/-! ## Annotations -/

theorem arguments_masked (source : Source) :
    arguments (masked source) = masked (arguments source) := by
  unfold arguments
  simp only [skipBlanks_masked, takeWhile_masked Text.isBlank]
  generalize source.takeWhile (fun c => Text.isBlank c.code) = blanks
  cases skipBlanks source with
  | nil => rfl
  | cons c rest =>
    obtain ⟨d, rfl⟩ | ⟨d, rfl⟩ := shown_or_concealed c
    · simp only [masked_shown, dropWhile_masked (· != ')'), takeWhile_masked (· != ')')]
      split
      · have hhead := List.head?_dropWhile_not (fun c : SourceChar => c.code != ')') rest
        cases hclose : rest.dropWhile fun c => c.code != ')' with
        | nil => rfl
        | cons close behind =>
          obtain ⟨e, rfl⟩ | ⟨e, rfl⟩ := shown_or_concealed close
          · simp
          · rw [hclose] at hhead
            exact Bool.noConfusion hhead
      · rfl
    · obtain ⟨n, hmasked⟩ := exists_masked_concealed d
      rw [hmasked]
      rfl

theorem markAt_eq_none {source : Source} (h : ∀ c ∈ source.head?, c.code ≠ '@') :
    markAt source = none := by
  obtain _ | ⟨c, _ | ⟨d, rest⟩⟩ := source
  · rfl
  · rfl
  · have hc : c.code ≠ '@' := h c rfl
    simp [markAt, hc]

/-- **The annotations of the masked text are those of the file, masked.** -/
theorem markAt_masked (source : Source) : markAt (masked source) = (markAt source).map masked := by
  obtain _ | ⟨c, source⟩ := source
  · rfl
  · obtain ⟨n, hmasked, -⟩ := exists_masked_cons c source
    by_cases hc : c.code = '@'
    · obtain rfl := eq_shown_of_code hc (by decide)
      obtain _ | ⟨d, rest⟩ := source
      · rfl
      · obtain ⟨d, rfl⟩ | ⟨d, rfl⟩ := shown_or_concealed d
        · have hname := takeWhile_masked_of_ne (show isPathChar ' ' = false by decide) rest
          have hshown := (takeWhile_masked isPathChar rest).symm.trans hname
          have hcut := List.takeWhile_append_dropWhile
            (p := fun c : SourceChar => isPathChar c.code) (l := rest)
          rw [masked_shown, masked_shown, markAt, markAt, hname]
          generalize rest.takeWhile (fun c => isPathChar c.code) = name at hshown hcut
          rw [← hcut, masked_append, hshown]
          simp only [List.drop_left, arguments_masked]
          split
          · simp [hshown]
          · rfl
        · obtain ⟨n, hmasked⟩ := exists_masked_concealed d
          rw [masked_shown, hmasked]
          rfl
    · rw [hmasked, markAt_eq_none (by simpa [code_shown] using hc),
        markAt_eq_none (by simpa using hc)]
      rfl

end TableMapper.Source
