import TableMapper.Proofs.Unit.Comment
import TableMapper.Proofs.Unit.Heading
import TableMapper.Proofs.Unit.Names

/-!
# Where the declaration of a written file is found

A declaration begins with a keyword and a blank. **A part of a file without
keywords in front of blanks is passed by the search** (`Idle`), and such
parts can be put one behind the other. Comments are such parts, and lines of
which no word in front of a blank is a keyword; in annotations keywords can
be parts of longer words (`KeywordFree`).
-/

namespace TableMapper.Source

/-- **A part of a file that is passed** by the search for a declaration,
wherever it stands. -/
def Idle (part : Source) : Prop :=
  ∀ before behind, findDeclaration before (part ++ behind) = findDeclaration
    (part.reverse ++ before) behind

theorem idle_nil : Idle [] := fun _ _ => rfl

theorem Idle.append {part more : Source} (h : Idle part) (hmore : Idle more) :
    Idle (part ++ more) := by
  intro before behind
  rw [List.append_assoc, h, hmore, List.reverse_append, List.append_assoc]

section

variable {part : Source} {cs ds : List Char} {c : Char}

/-! ## Keywords in front of blanks -/

theorem not_mem_keyword_of_isBlank (h : Text.isBlank c = true) (kind : DeclaredKind) :
    c ∉ kind.keyword.toList := by
  intro hmem
  have hletters : ∀ d ∈ kind.keyword.toList, Text.isBlank d = false := by
    cases kind <;> decide
  rw [hletters c hmem] at h
  exact Bool.noConfusion h

/-- A declaration begins with a keyword in front of a blank. -/
theorem exists_of_declarationAt {wordBefore : Bool} {source : Source}
    {found : DeclaredKind × Source}
    (h : declarationAt wordBefore source = some found) :
    ∃ kind blank behind, keywordFits wordBefore kind = true ∧
      codes source = kind.keyword.toList ++ blank :: behind ∧ Text.isBlank blank = true := by
  obtain ⟨kind, -, hkind⟩ := List.exists_of_findSome?_eq_some h
  split at hkind
  next hfits =>
    obtain ⟨name, hname, -⟩ := Option.bind_eq_some_iff.1 hkind
    obtain ⟨blanks, hword, hblanks⟩ := Option.bind_eq_some_iff.1 hname
    unfold behindWord at hword
    split at hword
    next hbegins =>
      obtain ⟨behind, hbehind⟩ := List.isPrefixOf_iff_prefix.1 hbegins
      have hcodes : codes blanks = behind := by
        rw [← Option.some.inj hword, codes, List.map_drop]
        show (codes source).drop _ = behind
        rw [← hbehind, List.drop_left]
      cases blanks with
      | nil => simp [behindBlanks] at hblanks
      | cons c blanks =>
        rw [codes_cons] at hcodes
        refine ⟨kind, c.code, codes blanks, hfits, by rw [hcodes, hbehind], ?_⟩
        rw [behindBlanks] at hblanks
        split at hblanks
        next hblank => exact hblank
        · simp at hblanks
    · simp at hword
  · simp at hkind

/-- A keyword in front of a blank is found in a part that ends with a blank,
whatever follows the part. -/
theorem exists_of_append_eq_keyword {kind : DeclaredKind} {stem more behind : List Char}
    {last blank : Char}
    (h : stem ++ last :: more = kind.keyword.toList ++ blank :: behind)
    (hlast : Text.isBlank last = true) :
    ∃ rest, stem ++ [last] = kind.keyword.toList ++ blank :: rest := by
  rcases List.append_eq_append_iff.1 h with ⟨between, hkeyword, hrest⟩ | ⟨between, hstem, hrest⟩
  · cases between with
    | nil =>
      rw [List.nil_append] at hrest
      obtain ⟨rfl, -⟩ := List.cons.inj hrest
      exact ⟨[], by rw [hkeyword, List.append_nil]⟩
    | cons d between =>
      -- the blank would stand inside the keyword
      obtain ⟨rfl, -⟩ := List.cons.inj hrest
      refine absurd ?_ (not_mem_keyword_of_isBlank hlast kind)
      rw [hkeyword]
      simp
  · cases between with
    | nil =>
      rw [List.nil_append] at hrest
      obtain ⟨rfl, -⟩ := List.cons.inj hrest
      exact ⟨[], by rw [hstem, List.append_nil]⟩
    | cons d between =>
      obtain ⟨rfl, -⟩ := List.cons.inj hrest
      exact ⟨between ++ [last], by rw [hstem]; simp⟩

/-- **A part that ends with a blank is passed**, if no keyword in front of a
blank fits where it stands. -/
theorem idle_of (hend : ∃ stem last, part = stem ++ [last] ∧ Text.isBlank last.code = true)
    (h : ∀ (kind : DeclaredKind) front blank behind,
      codes part = front ++ (kind.keyword.toList ++ blank :: behind) → Text.isBlank blank = true →
        ∃ c ∈ front.getLast?, keywordFits (Text.isWordChar c) kind = false) : Idle part := by
  intro before behind
  obtain ⟨stem, last, hpart, hlast⟩ := hend
  -- the search goes over the stem character by character, with what it has passed in reverse
  suffices hrest : ∀ rest front, stem = front ++ rest →
      findDeclaration (front.reverse ++ before) (rest ++ last :: behind)
        = findDeclaration (last :: (stem.reverse ++ before)) behind by
    rw [hpart, List.append_assoc, List.reverse_append]
    exact hrest stem [] rfl
  -- a keyword that fits here ends inside the part, as the last character of the part is a blank
  have hnone : ∀ front rest, stem = front ++ rest →
      declarationAt ((front.reverse ++ before).head?.any fun d => Text.isWordChar d.code)
        (rest ++ last :: behind) = none := by
    intro front rest hstem
    rw [Option.eq_none_iff_forall_ne_some]
    intro found hfound
    obtain ⟨kind, blank, more, hfits, hcodes, hblank⟩ := exists_of_declarationAt hfound
    rw [codes_append, codes_cons] at hcodes
    obtain ⟨more, hkeyword⟩ := exists_of_append_eq_keyword hcodes hlast
    have hwhole : codes part = codes front ++ (kind.keyword.toList ++ blank :: more) := by
      rw [← hkeyword, hpart, hstem]
      simp
    obtain ⟨c, hc, hmisfit⟩ := h kind (codes front) blank more hwhole hblank
    obtain ⟨d, hd, rfl⟩ : ∃ d ∈ front.getLast?, d.code = c := by
      rw [codes, List.getLast?_map] at hc
      simpa using hc
    have hhead : (front.reverse ++ before).head? = some d := by
      rw [List.head?_append, List.head?_reverse, hd]
      rfl
    rw [hhead, Option.any_some, hmisfit] at hfits
    exact Bool.noConfusion hfits
  intro rest
  induction rest with
  | nil =>
    intro front hstem
    rw [List.append_nil] at hstem
    rw [List.nil_append, findDeclaration_cons_of_none (hnone front [] (by simp [hstem])), hstem]
  | cons c rest ih =>
    intro front hstem
    have hnext := ih (front ++ [c]) (by simp [hstem])
    rw [List.reverse_append, List.reverse_singleton] at hnext
    have hpass := hnone front (c :: rest) hstem
    rw [List.cons_append] at hpass ⊢
    rw [findDeclaration_cons_of_none hpass]
    exact hnext

/-- A word that does not end with a keyword, with a blank behind it. -/
theorem idle_word {blank : Char} (hcs : ∀ c ∈ cs, Text.isBlank c = false)
    (hblank : Text.isBlank blank = true)
    (hend : ∀ kind : DeclaredKind, ¬ kind.keyword.toList <:+ cs) :
    Idle ((cs ++ [blank]).map shown) := by
  refine idle_of ⟨cs.map shown, shown blank, by simp, hblank⟩ ?_
  intro kind front blank' behind hcodes hblank'
  refine absurd ?_ (hend kind)
  have hcodes : cs ++ [blank] = (front ++ kind.keyword.toList) ++ blank' :: behind := by
    rw [List.append_assoc, ← hcodes, codes_map_shown]
  rcases List.append_eq_append_iff.1 hcodes with ⟨between, hword, hrest⟩ | ⟨between, hword, hrest⟩
  · cases between with
    | nil => exact ⟨front, by rw [hword, List.append_nil]⟩
    | cons d between => simp at hrest
  · cases between with
    | nil => exact ⟨front, by rw [hword, List.append_nil]⟩
    | cons d between =>
      obtain ⟨rfl, -⟩ := List.cons.inj hrest
      rw [hcs blank' (hword ▸ by simp)] at hblank'
      exact Bool.noConfusion hblank'

theorem DeclaredKind.mem_all (kind : DeclaredKind) : kind ∈ DeclaredKind.all := by
  cases kind <;> decide

/-- A certain word with a blank behind it. -/
theorem idle_certain (hcs : ∀ c ∈ cs, Text.isBlank c = false)
    (hend : ∀ kind ∈ DeclaredKind.all, ¬ kind.keyword.toList <:+ cs) :
    Idle ((cs ++ [' ']).map shown) :=
  idle_word hcs (by decide) fun kind => hend kind (DeclaredKind.mem_all kind)

/-- **Blanks are passed.** -/
theorem idle_blank (h : ∀ c ∈ part, Text.isBlank c.code = true) : Idle part := by
  induction part with
  | nil => exact idle_nil
  | cons c part ih =>
    have hfirst : Idle [c] := by
      refine idle_of ⟨[], c, rfl, h c List.mem_cons_self⟩ ?_
      intro kind front blank behind hcodes _
      have hlength := congrArg List.length hcodes
      have hkeyword : 0 < kind.keyword.toList.length := by
        cases kind <;> decide
      simp only [codes, List.length_map, List.length_append, List.length_cons,
        List.length_nil] at hlength
      omega
    exact hfirst.append (ih fun d hd => h d (List.mem_cons_of_mem c hd))

/-! ## Words that are no keywords -/

/-- **A text in which no keyword stands as a word of its own.** -/
def KeywordFree (cs : List Char) : Prop :=
  ∀ (kind : DeclaredKind) front behind, cs = front ++ (kind.keyword.toList ++ behind) →
    (∃ c ∈ front.getLast?, Text.isWordChar c = true) ∨ ∃ c ∈ behind.head?, Text.isWordChar c = true

theorem keyword_ne_nil (kind : DeclaredKind) : kind.keyword.toList ≠ [] := by
  cases kind <;> decide

theorem keywordFree_nil : KeywordFree [] := by
  intro kind front behind h
  exact absurd (List.append_eq_nil_iff.1 (List.append_eq_nil_iff.1 h.symm).2).1
    (keyword_ne_nil kind)

theorem getLast?_append_cons_of_mem {front : List Char} {d : Char}
    (h : d ∈ front.getLast?) (cs : List Char)
    (c : Char) : d ∈ (cs ++ c :: front).getLast? := by
  obtain ⟨stem, rfl⟩ := List.getLast?_eq_some_iff.1 (Option.mem_def.1 h)
  rw [← List.cons_append, ← List.append_assoc, List.getLast?_concat]
  rfl

/-- What is in no keyword separates the words. -/
theorem KeywordFree.append_cons (hcs : KeywordFree cs) (hds : KeywordFree ds)
    (hc : ∀ kind : DeclaredKind, c ∉ kind.keyword.toList) : KeywordFree (cs ++ c :: ds) := by
  intro kind front behind h
  rcases List.append_eq_append_iff.1 h with ⟨between, rfl, hrest⟩ | ⟨between, rfl, hrest⟩
  · -- the keyword stands behind the separator
    cases between with
    | nil =>
      obtain ⟨d, word, hword⟩ := List.exists_cons_of_ne_nil (keyword_ne_nil kind)
      rw [List.nil_append, hword] at hrest
      obtain ⟨rfl, -⟩ := List.cons.inj hrest
      exact absurd (hword ▸ List.mem_cons_self) (hc kind)
    | cons d between =>
      obtain ⟨rfl, hcut⟩ := List.cons.inj hrest
      rcases hds kind between behind hcut with ⟨d, hd, hword⟩ | hbehind
      · exact .inl ⟨d, getLast?_append_cons_of_mem hd cs c, hword⟩
      · exact .inr hbehind
  · rcases List.append_eq_append_iff.1 hrest with ⟨more, hbetween, rfl⟩ | ⟨more, hword, hmore⟩
    · -- the keyword stands in front of the separator
      rcases hcs kind front more (by rw [hbetween]) with hfront | ⟨d, hd, hword⟩
      · exact .inl hfront
      · refine .inr ⟨d, ?_, hword⟩
        rw [List.head?_append, hd]
        rfl
    · cases more with
      | nil =>
        rcases hcs kind front []
          (by rw [hword, List.append_nil, List.append_nil]) with hfront | ⟨d, hd, -⟩
        · exact .inl hfront
        · exact absurd hd (by simp)
      | cons d more =>
        obtain ⟨rfl, -⟩ := List.cons.inj hmore
        exact absurd (hword ▸ by simp) (hc kind)

/-- **A word that is no keyword holds none.** -/
theorem keywordFree_word (hcs : ∀ c ∈ cs, Text.isWordChar c = true)
    (hne : ∀ kind : DeclaredKind, cs ≠ kind.keyword.toList) : KeywordFree cs := by
  intro kind front behind h
  rcases List.eq_nil_or_concat front with rfl | ⟨stem, c, rfl⟩
  · cases behind with
    | nil => exact absurd (by rw [h, List.nil_append, List.append_nil]) (hne kind)
    | cons d behind => exact .inr ⟨d, rfl, hcs d (by rw [h]; simp)⟩
  · exact .inl ⟨c, by simp, hcs c (by rw [h]; simp)⟩

/-- What holds no characters of keywords holds no keyword. -/
theorem keywordFree_of_forall (h : ∀ c ∈ cs, ∀ kind : DeclaredKind, c ∉ kind.keyword.toList) :
    KeywordFree cs := by
  induction cs with
  | nil => exact keywordFree_nil
  | cons c cs ih =>
    exact keywordFree_nil.append_cons (ih fun d hd => h d (List.mem_cons_of_mem c hd))
      (h c List.mem_cons_self)

/-- The sign of an annotation makes no keyword of a name. -/
theorem KeywordFree.mark (h : KeywordFree cs) : KeywordFree ('@' :: cs) := by
  intro kind front behind hcut
  cases front with
  | nil =>
    cases kind with
    | annotationType =>
      rcases h .interface [] behind (List.cons.inj hcut).2 with ⟨d, hd, -⟩ | hbehind
      · exact absurd hd (by simp)
      · exact .inr hbehind
    | _ => exact absurd (List.cons.inj hcut).1 (by decide)
  | cons c front =>
    obtain ⟨rfl, hrest⟩ := List.cons.inj hcut
    rcases h kind front behind hrest with ⟨d, hd, hword⟩ | hbehind
    · exact .inl ⟨d, getLast?_append_cons_of_mem hd [] '@', hword⟩
    · exact .inr hbehind

theorem KeywordFree.blanks_append (hcs : Text.Blank cs) (hds : KeywordFree ds) :
    KeywordFree (cs ++ ds) := by
  induction cs with
  | nil => exact hds
  | cons c cs ih =>
    exact keywordFree_nil.append_cons (ih fun d hd => hcs d (List.mem_cons_of_mem c hd))
      (not_mem_keyword_of_isBlank (hcs c List.mem_cons_self))

/-- A code point of a class lies between the ends of one of its spans. -/
theorem exists_span_of_anyHas {spans : List Text.Span} {n : Nat}
    (h : Text.Span.anyHas spans n = true) :
    ∃ span ∈ spans, span.first ≤ n ∧ n ≤ span.last := by
  induction spans with
  | nil => exact absurd h (by simp [Text.Span.anyHas])
  | cons span spans ih =>
    rw [Text.Span.anyHas] at h
    split at h
    · exact Bool.noConfusion h
    next hfirst =>
      split at h
      next hlast => exact ⟨span, List.mem_cons_self, by omega, hlast⟩
      · obtain ⟨other, hmem, hother⟩ := ih h
        exact ⟨other, List.mem_cons_of_mem span hmem, hother⟩

/-- **Blanks are no word characters.** -/
theorem isWordChar_of_isBlank (h : Text.isBlank c = true) : Text.isWordChar c = false := by
  have htable : ∀ span ∈ Text.blanks, ∀ n < span.last + 1 - span.first,
      (Text.Span.anyHas Text.alphabetic (span.first + n) ||
        Text.Span.anyHas Text.wordContinuations (span.first + n)) = false := by
    decide +kernel
  obtain ⟨span, hspan, hfirst, hlast⟩ := exists_span_of_anyHas h
  have hword := htable span hspan (c.toNat - span.first) (by omega)
  rw [show span.first + (c.toNat - span.first) = c.toNat by omega] at hword
  exact hword

/-- **A line without keywords is passed.** -/
theorem idle_line {line : Source} (h : KeywordFree (codes line)) : Idle (line ++ [shown '\n']) := by
  have hline : KeywordFree (codes line ++ ['\n']) :=
    h.append_cons keywordFree_nil (not_mem_keyword_of_isBlank (by decide))
  refine idle_of ⟨line, shown '\n', rfl, by decide⟩ ?_
  intro kind front blank behind hcodes hblank
  have hcodes : codes line ++ ['\n'] = front ++ (kind.keyword.toList ++ blank :: behind) := by
    rw [← hcodes, codes_append]
    rfl
  have hword := isWordChar_of_isBlank hblank
  have hfront : ∀ {kind : DeclaredKind} {front : List Char},
      codes line ++ ['\n'] = front ++ (kind.keyword.toList ++ blank :: behind) →
        ∃ c ∈ front.getLast?, Text.isWordChar c = true := by
    intro kind front hcut
    rcases hline kind front (blank :: behind) hcut with hfront | ⟨d, hd, hd'⟩
    · exact hfront
    · obtain rfl : blank = d := by simpa using hd
      rw [hword] at hd'
      exact Bool.noConfusion hd'
  obtain ⟨c, hc, hwordBefore⟩ := hfront hcodes
  refine ⟨c, hc, ?_⟩
  rw [hwordBefore]
  cases kind with
  | annotationType =>
    -- without its first character the keyword is the one of an interface
    have hinterface : codes line ++ ['\n']
        = (front ++ ['@']) ++ (DeclaredKind.interface.keyword.toList ++ blank :: behind) := by
      rw [hcodes, List.append_assoc]
      rfl
    obtain ⟨d, hd, hat⟩ := hfront hinterface
    obtain rfl : '@' = d := by simpa using hd
    exact absurd hat (by decide)
  | _ => rfl

/-! ## The keyword of the declaration -/

theorem behindWord_map_shown (word rest : List Char) (behind : Source) :
    behindWord word ((word ++ rest).map shown ++ behind) = some (rest.map shown ++ behind) := by
  have hbegins : word.isPrefixOf (codes ((word ++ rest).map shown ++ behind)) = true := by
    rw [codes_append, codes_map_shown, List.append_assoc]
    exact List.isPrefixOf_iff_prefix.2 (List.prefix_append _ _)
  have hdrop : ((word ++ rest).map shown ++ behind).drop word.length
      = rest.map shown ++ behind := by
    rw [List.map_append, List.append_assoc, ← List.length_map shown, List.drop_left]
  rw [behindWord, if_pos hbegins, hdrop]

/-- The name declared ends where something else begins. -/
theorem behindName_map_shown {name : List Char} (hname : IsDeclarable name) {rest : Source}
    (hrest : ∀ c ∈ rest.head?, isNamePart c.code = false) :
    behindName (name.map shown ++ rest) = some rest := by
  obtain ⟨c, name, rfl, hc, hname⟩ := hname
  have hpass : ∀ d ∈ name.map shown, isNamePart d.code = true := by
    intro d hd
    obtain ⟨e, he, rfl⟩ := List.mem_map.1 hd
    exact hname e he
  have hdrop : (name.map shown ++ rest).dropWhile (fun d => isNamePart d.code) = rest := by
    rw [List.dropWhile_append_of_pos hpass]
    cases rest with
    | nil => rfl
    | cons d rest => rw [List.dropWhile_cons_of_neg (by simp [hrest d rfl])]
  show (if isNameStart c = true then
    some ((name.map shown ++ rest).dropWhile fun d => isNamePart d.code) else none) = _
  rw [if_pos hc, hdrop]

theorem behindBlanks_map_shown {word : List Char}
    (h : ∃ c cs, word = c :: cs ∧ Text.isBlank c = false)
    (rest : Source) : behindBlanks ((' ' :: word).map shown ++ rest)
      = some (word.map shown ++ rest) := by
  obtain ⟨c, cs, rfl, hc⟩ := h
  show (if Text.isBlank ' ' = true then some (((c :: cs).map shown ++ rest).dropWhile _) else none)
      = _
  rw [if_pos (by decide), List.map_cons, List.cons_append,
    List.dropWhile_cons_of_neg (by simpa [shown, SourceChar.code] using hc)]

/-- **The declaration is found at its keyword.** -/
theorem findDeclaration_keyword (kind : TypeKind) {name : List Char} (hname : IsDeclarable name)
    {before rest : Source} (hbefore : ∀ c ∈ before.head?, Text.isWordChar c.code = false)
    (hrest : ∀ c ∈ rest.head?, isNamePart c.code = false) :
    findDeclaration before ((kind.keyword.toList ++ ' ' :: name).map shown ++ rest)
      = some ⟨kind.declared, before.reverse, rest⟩ := by
  have hwordBefore : (before.head?.any fun d => Text.isWordChar d.code) = false := by
    cases hhead : before.head? with
    | none => rfl
    | some c => exact hbefore c hhead
  have hblanks : behindBlanks ((' ' :: name).map shown ++ rest)
      = some (name.map shown ++ rest) := by
    refine behindBlanks_map_shown ?_ rest
    obtain ⟨c, more, rfl, hc, -⟩ := hname
    exact ⟨c, more, rfl, isBlank_of_isNameChar (isNameChar_of_isNameStart hc)⟩
  have hword := behindWord_map_shown kind.keyword.toList (' ' :: name) rest
  have hat : declarationAt false ((kind.keyword.toList ++ ' ' :: name).map shown ++ rest)
      = some (kind.declared, rest) := by
    have hclass : keywordFits false .class = true := rfl
    have hinterface : keywordFits false .interface = true := rfl
    rw [declarationAt, DeclaredKind.all, List.findSome?_cons, if_pos hclass]
    cases kind with
    | «class» =>
      rw [show behindWord DeclaredKind.class.keyword.toList _ = _ from hword, Option.bind_some,
        hblanks, Option.bind_some, behindName_map_shown hname hrest]
      rfl
    | interface =>
      have hother : behindWord DeclaredKind.class.keyword.toList
          ((TypeKind.interface.keyword.toList ++ ' ' :: name).map shown ++ rest) = none := rfl
      rw [hother, Option.bind_none, Option.bind_none, List.findSome?_cons, if_pos hinterface,
        show behindWord DeclaredKind.interface.keyword.toList _ = _ from hword, Option.bind_some,
        hblanks, Option.bind_some, behindName_map_shown hname hrest]
      rfl
  cases kind with
  | «class» => exact findDeclaration_cons_of_some (by rw [hwordBefore]; exact hat)
  | interface => exact findDeclaration_cons_of_some (by rw [hwordBefore]; exact hat)

end

end TableMapper.Source
