import Mathlib.Data.List.Infix
import TableMapper.Proofs.Unit.Declaration

/-!
# A file with one type

An existing file is written by a person, so nothing can be said of its layout.
It is cut here where its structure is: into what stands in front of the type,
its modifiers, the word that introduces it, its name, its header and what
follows the opening brace (`TypeFile`). **The declaration is found at its
word** (`TypeFile.IsDeclaredAs.ofSource?_text`), of whatever kind the type is,
with one exception: the sign of an annotation type belongs to the word only
where a letter stands in front of it. Behind a blank or at the beginning of a
line, where it is usually written, **an annotation type is taken for an
interface** (`TypeFile.seenKind`).
-/

namespace TableMapper

namespace Source

section

variable {word blanks name rest before : Source} {kind : DeclaredKind}

/-! ## One declaration -/

theorem behindWord_codes (h : codes word = kind.keyword.toList) (rest : Source) :
    behindWord kind.keyword.toList (word ++ rest) = some rest := by
  have hbegins : kind.keyword.toList.isPrefixOf (codes (word ++ rest)) = true := by
    rw [codes_append, h]
    exact List.isPrefixOf_iff_prefix.2 (List.prefix_append _ _)
  have hlength : kind.keyword.toList.length = word.length := by rw [← h, codes, List.length_map]
  rw [behindWord, if_pos hbegins, hlength, List.drop_left]

theorem behindBlanks_codes (h : Text.Blank (codes blanks)) (hne : blanks ≠ [])
    (hrest : ∀ c ∈ rest.head?, Text.isBlank c.code = false) : behindBlanks (blanks ++ rest)
      = some rest := by
  obtain ⟨blank, blanks, rfl⟩ := List.exists_cons_of_ne_nil hne
  have hpass : ∀ c ∈ blanks, Text.isBlank c.code = true :=
    fun c hc => h c.code (List.mem_cons_of_mem _ (List.mem_map_of_mem hc))
  rw [List.cons_append, behindBlanks, if_pos (h _ List.mem_cons_self),
    List.dropWhile_append_of_pos hpass]
  cases rest with
  | nil => rfl
  | cons c rest => rw [List.dropWhile_cons_of_neg (by simp [hrest c rfl])]

theorem behindName_codes (h : IsDeclarable (codes name))
    (hrest : ∀ c ∈ rest.head?, isNamePart c.code = false) :
    behindName (name ++ rest) = some rest := by
  obtain ⟨first, letters, hcodes, hfirst, hletters⟩ := h
  obtain ⟨c, name, rfl, rfl, rfl⟩ := List.map_eq_cons_iff.1 hcodes
  have hpass : ∀ d ∈ name, isNamePart d.code = true :=
    fun d hd => hletters d.code (List.mem_map_of_mem hd)
  rw [List.cons_append, behindName, if_pos hfirst, List.dropWhile_append_of_pos hpass]
  cases rest with
  | nil => rfl
  | cons d rest => rw [List.dropWhile_cons_of_neg (by simp [hrest d rfl])]

/-- Two words that can stand at the same place begin with different
characters. -/
theorem behindWord_other {other : DeclaredKind} {wordBefore : Bool}
    (hword : codes word = kind.keyword.toList)
    (hfits : keywordFits wordBefore kind = true) (hother : keywordFits wordBefore other = true)
    (hne : other ≠ kind)
    (rest : Source) : behindWord other.keyword.toList (word ++ rest) = none := by
  have hfirst : kind.keyword.toList.head? ≠ other.keyword.toList.head? := by
    revert hfits hother hne
    cases wordBefore <;> cases kind <;> cases other <;> decide
  rw [behindWord, if_neg]
  intro hbegins
  obtain ⟨more, hmore⟩ := List.isPrefixOf_iff_prefix.1 hbegins
  rw [codes_append, hword] at hmore
  have hhead := congrArg List.head? hmore
  rw [List.head?_append_of_ne_nil _ (keyword_ne_nil other),
    List.head?_append_of_ne_nil _ (keyword_ne_nil kind)] at hhead
  exact hfirst hhead.symm

/-- **A declaration begins at its word**, if this fits where it stands. -/
theorem declarationAt_word {wordBefore : Bool} (hfits : keywordFits wordBefore kind = true)
    (hword : codes word = kind.keyword.toList) (hblanks : Text.Blank (codes blanks))
    (hne : blanks ≠ [])
    (hname : IsDeclarable (codes name)) (hrest : ∀ c ∈ rest.head?, isNamePart c.code = false) :
    declarationAt wordBefore (word ++ (blanks ++ (name ++ rest))) = some (kind, rest) := by
  have hhead : ∀ c ∈ (name ++ rest).head?, Text.isBlank c.code = false := by
    obtain ⟨first, letters, hcodes, hfirst, -⟩ := hname
    obtain ⟨c, name, rfl, rfl, -⟩ := List.map_eq_cons_iff.1 hcodes
    rintro d ⟨⟩
    exact isBlank_of_isNameChar (isNameChar_of_isNameStart hfirst)
  -- what the search asks of each kind of declaration, which only one can answer
  have hown : (if keywordFits wordBefore kind then
      ((behindWord kind.keyword.toList (word ++ (blanks ++ (name ++ rest)))).bind behindBlanks).bind
        fun name =>
        (behindName name).map fun rest => (kind, rest) else none) = some (kind, rest) := by
    rw [if_pos hfits, behindWord_codes hword, Option.bind_some,
      behindBlanks_codes hblanks hne hhead, Option.bind_some, behindName_codes hname hrest]
    rfl
  have hothers : ∀ other, other ≠ kind → (if keywordFits wordBefore other then
      ((behindWord other.keyword.toList (word ++ (blanks ++ (name ++ rest)))).bind
        behindBlanks).bind fun name =>
        (behindName name).map fun rest => (other, rest) else none) = none := by
    intro other hother
    split
    next hfit =>
      rw [behindWord_other hword hfits hfit hother]
      rfl
    · rfl
  unfold declarationAt
  obtain ⟨front, behind, hall, hfront⟩ := List.eq_append_cons_of_mem (DeclaredKind.mem_all kind)
  rw [hall, List.findSome?_append, List.findSome?_cons, hown,
    List.findSome?_eq_none_iff.2 fun other hother => hothers other fun heq => hfront (heq ▸ hother)]
  rfl

/-- **The declaration is found at its word.** -/
theorem findDeclaration_word
    (hfits : keywordFits (before.head?.any fun d => Text.isWordChar d.code) kind = true)
    (hword : codes word = kind.keyword.toList) (hblanks : Text.Blank (codes blanks))
    (hne : blanks ≠ [])
    (hname : IsDeclarable (codes name)) (hrest : ∀ c ∈ rest.head?, isNamePart c.code = false) :
    findDeclaration before (word ++ (blanks ++ (name ++ rest)))
      = some ⟨kind, before.reverse, rest⟩ := by
  have hat := declarationAt_word hfits hword hblanks hne hname hrest
  obtain ⟨c, word, rfl⟩ : ∃ c cs, word = c :: cs := by
    refine List.exists_cons_of_ne_nil ?_
    rintro rfl
    exact keyword_ne_nil kind hword.symm
  exact findDeclaration_cons_of_some hat

/-- The sign of an annotation type with a gap behind it begins no
declaration, and neither does one that follows no letter. -/
theorem declarationAt_sign {sign : SourceChar} {gap : Source} {wordBefore : Bool}
    (hsign : sign.code = '@')
    (hgap : Text.Blank (codes gap)) (hapart : wordBefore = false ∨ gap ≠ []) (rest : Source) :
    declarationAt wordBefore (sign :: (gap ++ rest)) = none := by
  refine List.findSome?_eq_none_iff.2 fun kind _ => ?_
  split
  next hfits =>
    rw [behindWord, if_neg]
    · rfl
    · intro hbegins
      obtain ⟨more, hmore⟩ := List.isPrefixOf_iff_prefix.1 hbegins
      rw [codes_cons, hsign] at hmore
      cases kind with
      | annotationType =>
        obtain rfl | hne := hapart
        · exact Bool.noConfusion hfits
        · obtain ⟨blank, gap, rfl⟩ := List.exists_cons_of_ne_nil hne
          have hblank := hgap blank.code List.mem_cons_self
          have hcode : 'i' = blank.code := (List.cons.inj (List.cons.inj hmore).2).1
          rw [← hcode] at hblank
          exact absurd hblank (by decide)
      | _ => exact absurd (List.cons.inj hmore).1 (by decide)
  · rfl

/-- **An annotation type is found as an interface** behind its sign, unless
the sign follows a letter and the word the sign. -/
theorem findDeclaration_sign {sign : SourceChar} {gap : Source} (hsign : sign.code = '@')
    (hgap : Text.Blank (codes gap))
    (hapart : (before.head?.any fun d => Text.isWordChar d.code) = false ∨ gap ≠ [])
    (hword : codes word = DeclaredKind.interface.keyword.toList)
    (hblanks : Text.Blank (codes blanks)) (hne : blanks ≠ [])
    (hname : IsDeclarable (codes name)) (hrest : ∀ c ∈ rest.head?, isNamePart c.code = false) :
    findDeclaration before (sign :: (gap ++ (word ++ (blanks ++ (name ++ rest)))))
      = some ⟨.interface, before.reverse ++ sign :: gap, rest⟩ := by
  have hpass : ∀ c ∈ gap, Text.isBlank c.code = true :=
    fun c hc => hgap c.code (List.mem_map_of_mem hc)
  rw [findDeclaration_cons_of_none (declarationAt_sign hsign hgap hapart _), idle_blank hpass,
    @findDeclaration_word word blanks name rest _ .interface ?_ hword hblanks hne hname hrest]
  · simp
  · -- in front of the word stand the sign or blanks
    have hfront : ∀ c ∈ (gap.reverse ++ sign :: before).head?, Text.isWordChar c.code = false := by
      cases hlast : gap.getLast? with
      | none =>
        rw [List.getLast?_eq_none_iff.1 hlast]
        rintro c ⟨⟩
        rw [hsign]
        decide
      | some last =>
        obtain ⟨stem, rfl⟩ := List.getLast?_eq_some_iff.1 hlast
        rw [List.reverse_append]
        rintro c ⟨⟩
        exact isWordChar_of_isBlank (hpass last (by simp))
    cases hhead : (gap.reverse ++ sign :: before).head? with
    | none => rfl
    | some c =>
      rw [Option.any_some, hfront c hhead]
      rfl

/-! ## Parts without declarations -/

/-- A keyword in front of a blank begins the text. -/
def beginsDeclaration (cs : List Char) : Bool :=
  DeclaredKind.all.any fun kind =>
    kind.keyword.toList.isPrefixOf cs && (cs.drop kind.keyword.toList.length).head?.any Text.isBlank

/-- **A part is passed** if it ends with a blank and no declaration begins in
it, wherever one looks. -/
theorem idle_of_tails {part : Source}
    (hend : part.getLast?.any (fun c => Text.isBlank c.code) = true)
    (h : ∀ back ∈ (codes part).tails, beginsDeclaration back = false) : Idle part := by
  obtain ⟨last, hlast, hblank⟩ : ∃ last, part.getLast? = some last ∧
      Text.isBlank last.code = true := by
    cases hlast : part.getLast? with
    | none => simp [hlast] at hend
    | some last => exact ⟨last, rfl, by simpa [hlast] using hend⟩
  obtain ⟨stem, rfl⟩ := List.getLast?_eq_some_iff.1 hlast
  refine idle_of ⟨stem, last, rfl, hblank⟩ fun kind front blank behind hcodes hblank => ?_
  have hnone := h (kind.keyword.toList ++ blank :: behind)
    ((List.mem_tails _ _).2 ⟨front, hcodes.symm⟩)
  rw [beginsDeclaration, List.any_eq_false] at hnone
  refine absurd ?_ (hnone kind (DeclaredKind.mem_all kind))
  rw [Bool.and_eq_true, List.drop_left]
  exact ⟨List.isPrefixOf_iff_prefix.2 (List.prefix_append _ _), by simpa using hblank⟩

end

end Source

open Source

/-! ## The file -/

/-- **A file with one type.** -/
structure TypeFile where
  /-- The package and the imports. -/
  front : String
  /-- Comments, annotations and modifiers of the type. -/
  modifiers : String
  /-- The word that introduces the type, with what separates it from the
  name. -/
  keyword : String
  name : String
  /-- What stands between the name and the opening brace. -/
  header : String
  /-- What follows the opening brace. -/
  body : String
deriving Repr, DecidableEq

namespace TypeFile

def text (f : TypeFile) : String :=
  f.front ++ f.modifiers ++ f.keyword ++ f.name ++ f.header ++ "\x7b" ++ f.body

/-- What stands in front of the word. -/
def lead (f : TypeFile) : Source :=
  ofText f.front ++ ofText f.modifiers

/-- The word that introduces a kind of type. The sign of an annotation type
can stand apart. -/
def IsWord (kind : DeclaredKind) (cs : List Char) : Prop :=
  cs = kind.keyword.toList ∨ kind = .annotationType ∧ ∃ gap, Text.Blank gap ∧
    cs = '@' :: (gap ++ "interface".toList)

/-- **A file that declares a type of the kind**: no other declaration begins
in front of it, and comments and literals end in the part that they begin
in. -/
structure IsDeclaredAs (f : TypeFile) (kind : DeclaredKind) : Prop where
  front_settled : Settled f.front.toList
  modifiers_settled : Settled f.modifiers.toList
  keyword_settled : Settled f.keyword.toList
  name_settled : Settled f.name.toList
  header_settled : Settled f.header.toList
  idle : Idle f.lead
  /-- The word is one of its own; only the sign of an annotation type can
  follow a letter. -/
  separate : kind ≠ .annotationType → ∀ c ∈ f.lead.getLast?, Text.isWordChar c.code = false
  keyword : ∃ word blanks, codes (ofText f.keyword) = word ++ blanks ∧ IsWord kind word ∧
    Text.Blank blanks ∧ blanks ≠ []
  name : IsDeclarable (codes (ofText f.name))
  header : '\x7b' ∉ codes (ofText f.header)
  name_ends : ∀ c ∈ (codes (ofText f.header)).head?, isNamePart c = false

/-- The sign of the annotation type is part of the word that is looked
for. -/
def SignSeen (f : TypeFile) : Prop :=
  (∃ c ∈ f.lead.getLast?, Text.isWordChar c.code = true) ∧
    DeclaredKind.annotationType.keyword.toList <+: codes (ofText f.keyword)

instance (f : TypeFile) : Decidable f.SignSeen :=
  inferInstanceAs (Decidable (_ ∧ _))

/-- **The kind that a type is taken for.** -/
def seenKind (f : TypeFile) (kind : DeclaredKind) : DeclaredKind :=
  if kind = .annotationType ∧ ¬ f.SignSeen then .interface else kind

/-- What stands in front of the word that is found: the sign of an annotation
type too, unless it is part of the word. -/
def prelude (f : TypeFile) (kind : DeclaredKind) : Source :=
  f.lead ++ if f.seenKind kind
      = kind then [] else (ofText f.keyword).takeWhile fun c => c.code != 'i'

/-- What is read from the file. -/
def declared (f : TypeFile) (kind : DeclaredKind) : Declared :=
  Declared.ofDeclaration ⟨f.seenKind kind, f.prelude kind, []⟩ (ofText f.header) (ofText f.body)

section

variable {f : TypeFile} {kind : DeclaredKind}

theorem ofText_append {s : String} (h : Settled s.toList) (t : String) :
    ofText (s ++ t) = ofText s ++ ofText t := by
  rw [ofText, String.toList_append, h]
  rfl

/-- **A file is marked part by part.** -/
theorem IsDeclaredAs.ofText_text (h : f.IsDeclaredAs kind) : ofText f.text
    = f.lead ++ (ofText f.keyword ++
      (ofText f.name ++ (ofText f.header ++ shown '\x7b' :: ofText f.body))) := by
  have hbrace : Settled "\x7b".toList := settled_of_inert (by decide)
  rw [text, String.append_assoc, String.append_assoc, String.append_assoc, String.append_assoc,
    String.append_assoc, ofText_append h.front_settled, ofText_append h.modifiers_settled,
    ofText_append h.keyword_settled, ofText_append h.name_settled, ofText_append h.header_settled,
    ofText_append hbrace, lead, List.append_assoc]
  rfl

/-- Which characters stand in front of the word, as the search sees it. -/
theorem any_head?_lead (f : TypeFile) :
    (f.lead.reverse.head?.any fun c => Text.isWordChar c.code) = true ↔
    ∃ c ∈ f.lead.getLast?, Text.isWordChar c.code = true := by
  rw [List.head?_reverse]
  cases f.lead.getLast? <;> simp

/-- The word that introduces an annotation type, part by part. -/
theorem IsDeclaredAs.exists_sign (h : f.IsDeclaredAs .annotationType) : ∃ sign gap word blanks,
    ofText f.keyword = sign :: gap ++ (word ++ blanks) ∧ sign.code = '@' ∧ Text.Blank (codes gap) ∧
    codes word = DeclaredKind.interface.keyword.toList ∧ Text.Blank (codes blanks) ∧ blanks ≠ [] ∧
    (ofText f.keyword).takeWhile (fun c => c.code != 'i') = sign :: gap := by
  obtain ⟨word, blanks, hkeyword, hword, hblanks, hne⟩ := h.keyword
  obtain ⟨gap, hgap, rfl⟩ : ∃ gap, Text.Blank gap ∧ word = '@' :: (gap ++ "interface".toList) := by
    rcases hword with rfl | ⟨-, gap, hgap, rfl⟩
    · exact ⟨[], by decide, rfl⟩
    · exact ⟨gap, hgap, rfl⟩
  obtain ⟨front, blanks, hsource, hfront, rfl⟩ := List.map_eq_append_iff.1 hkeyword
  obtain ⟨sign, front, rfl, hsign, hfront⟩ := List.map_eq_cons_iff.1 hfront
  obtain ⟨gap, word, rfl, rfl, hletters⟩ := List.map_eq_append_iff.1 hfront
  have hcut : ofText f.keyword = sign :: gap ++ (word ++ blanks) := by rw [hsource]; simp
  have htake : (ofText f.keyword).takeWhile (fun c => c.code != 'i') = sign :: gap := by
    obtain ⟨first, letters, rfl, hfirst, -⟩ := List.map_eq_cons_iff.1
      (show word.map SourceChar.code = 'i' :: "nterface".toList from hletters)
    have hpass : ∀ c ∈ sign :: gap, (c.code != 'i') = true := by
      refine List.forall_mem_cons.2 ⟨by rw [hsign]; decide, fun c hc => ?_⟩
      refine bne_iff_ne.2 fun heq => hgap.not_mem (show Text.isBlank 'i' = false by decide) ?_
      exact List.mem_map.2 ⟨c, hc, heq⟩
    rw [hcut, List.takeWhile_append_of_pos hpass, List.cons_append (a := first),
      List.takeWhile_cons_of_neg (by simp [hfirst]), List.append_nil]
  exact ⟨sign, gap, word, blanks, hcut, hsign, hgap, hletters, hblanks,
    fun hnil => hne (by rw [hnil]; rfl), htake⟩

/-- An annotation type whose sign is not seen as part of the word. -/
theorem IsDeclaredAs.findDeclaration_sign (h : f.IsDeclaredAs .annotationType)
    (hseen : ¬ f.SignSeen) {rest : Source}
    (hrest : ∀ c ∈ rest.head?, isNamePart c.code = false) :
    findDeclaration f.lead.reverse (ofText f.keyword ++ (ofText f.name ++ rest))
      = some ⟨.interface, f.lead ++ (ofText f.keyword).takeWhile
        (fun c => c.code != 'i'), rest⟩ := by
  obtain ⟨sign, gap, word, blanks, hcut, hsign, hgap, hletters, hblanks, hne, htake⟩ :=
    h.exists_sign
  have hapart : (f.lead.reverse.head?.any fun c => Text.isWordChar c.code) = false ∨ gap ≠ [] := by
    by_cases hnone : gap = []
    · refine .inl (Bool.eq_false_iff.2 fun hword => hseen ⟨(any_head?_lead f).1 hword, ?_⟩)
      rw [hcut, hnone, codes_append, codes_append, codes_cons, hsign, hletters]
      exact List.prefix_append _ _
    · exact .inr hnone
  rw [htake, hcut, List.append_assoc, List.append_assoc, List.cons_append]
  have hfound := Source.findDeclaration_sign hsign hgap hapart hletters hblanks hne h.name hrest
  rwa [List.reverse_reverse] at hfound

/-- **What stands in front of the word that is found**: the sign of an
annotation type and the gap behind it come behind the modifiers. They end no
import. -/
theorem IsDeclaredAs.exists_prelude (h : f.IsDeclaredAs kind) :
    ∃ tail rest, f.prelude kind = f.lead ++ tail ∧
    ofText f.keyword = tail ++ rest ∧ (∀ c ∈ tail, c.code ≠ ';') ∧
    (tail = [] ∨ ∃ sign gap, tail = sign :: gap ∧ sign.code = '@' ∧ Text.Blank (codes gap)) := by
  by_cases hseen : f.seenKind kind = kind
  · exact ⟨[], _, by rw [prelude, if_pos hseen], rfl, by simp, .inl rfl⟩
  · obtain rfl : kind = .annotationType := by
      by_contra hkind
      exact hseen (if_neg fun hboth => hkind hboth.1)
    obtain ⟨sign, gap, word, blanks, hcut, hsign, hgap, -, -, -, htake⟩ := h.exists_sign
    refine ⟨sign :: gap, _, by rw [prelude, if_neg hseen, htake], hcut, ?_,
      .inr ⟨sign, gap, rfl, hsign, hgap⟩⟩
    refine List.forall_mem_cons.2 ⟨by rw [hsign]; decide, fun c hc heq => ?_⟩
    exact hgap.not_mem (show Text.isBlank ';' = false by decide) (heq ▸ List.mem_map_of_mem hc)

/-- A type of which the whole word is found. -/
theorem IsDeclaredAs.findDeclaration_word (h : f.IsDeclaredAs kind)
    (hseen : kind = .annotationType → f.SignSeen)
    {rest : Source} (hrest : ∀ c ∈ rest.head?, isNamePart c.code = false) :
    findDeclaration f.lead.reverse (ofText f.keyword ++ (ofText f.name ++ rest))
      = some ⟨kind, f.lead, rest⟩ := by
  obtain ⟨word, blanks, hkeyword, hword, hblanks, hne⟩ := h.keyword
  have hword : word = kind.keyword.toList := by
    rcases hword with hword | ⟨rfl, gap, hgap, rfl⟩
    · exact hword
    · -- the sign is seen, so nothing stands between it and the word
      obtain ⟨more, hmore⟩ := (hseen rfl).2
      rw [hkeyword] at hmore
      cases gap with
      | nil => rfl
      | cons blank gap =>
        have hblank := hgap blank List.mem_cons_self
        rw [← (List.cons.inj (List.cons.inj hmore).2).1] at hblank
        exact absurd hblank (by decide)
  have hfits : keywordFits (f.lead.reverse.head?.any fun c => Text.isWordChar c.code)
      kind = true := by
    by_cases hkind : kind = .annotationType
    · rw [hkind]
      exact (any_head?_lead f).2 (hseen hkind).1
    · have hnone : (f.lead.reverse.head?.any fun c => Text.isWordChar c.code) = false := by
        refine Bool.eq_false_iff.2 fun hword => ?_
        obtain ⟨c, hc, hword⟩ := (any_head?_lead f).1 hword
        rw [h.separate hkind c hc] at hword
        exact Bool.noConfusion hword
      rw [hnone]
      cases kind with
      | annotationType => exact absurd rfl hkind
      | _ => rfl
  obtain ⟨word, blanks, hsource, rfl, rfl⟩ := List.map_eq_append_iff.1 hkeyword
  have hne : blanks ≠ [] := fun hnil => hne (by rw [hnil]; rfl)
  have hfound := Source.findDeclaration_word hfits hword hblanks hne h.name hrest
  rw [List.reverse_reverse] at hfound
  rw [hsource, List.append_assoc]
  exact hfound

/-- **What is read from a file.** -/
theorem IsDeclaredAs.ofSource?_text (h : f.IsDeclaredAs kind) :
    Declared.ofSource? (ofText f.text) = some (f.declared kind) := by
  have hrest : ∀ c ∈ (ofText f.header ++ shown '\x7b' :: ofText f.body).head?,
      isNamePart c.code = false := by
    cases hheader : ofText f.header with
    | nil =>
      rintro c ⟨⟩
      decide
    | cons d header =>
      rintro c ⟨⟩
      exact h.name_ends d.code (by rw [hheader]; rfl)
  have hfound : findDeclaration [] (ofText f.text) = some
      ⟨f.seenKind kind, f.prelude kind, ofText f.header ++ shown '\x7b' :: ofText f.body⟩ := by
    rw [h.ofText_text, h.idle, List.append_nil]
    by_cases hseen : kind = .annotationType ∧ ¬ f.SignSeen
    · obtain ⟨rfl, hnot⟩ := hseen
      have hkind : f.seenKind .annotationType = .interface := if_pos ⟨rfl, hnot⟩
      rw [prelude, hkind, if_neg (by decide)]
      exact h.findDeclaration_sign hnot hrest
    · have hkind : f.seenKind kind = kind := if_neg hseen
      rw [prelude, hkind, if_pos rfl, List.append_nil]
      exact h.findDeclaration_word (fun heq => by_contra fun hnot => hseen ⟨heq, hnot⟩) hrest
  refine Declared.ofSource?_eq_some_iff.2
    ⟨_, ofText f.header, shown '\x7b', ofText f.body, hfound, rfl,
      fun c hc heq => h.header ?_, rfl, rfl⟩
  rw [← heq]
  exact List.mem_map_of_mem hc

/-- Only an annotation type is taken for something else, and for an
interface. -/
theorem seenKind_of_ne (f : TypeFile) (hkind : kind ≠ .annotationType) : f.seenKind kind = kind :=
  if_neg fun hseen => hkind hseen.1

end

end TypeFile

end TableMapper
