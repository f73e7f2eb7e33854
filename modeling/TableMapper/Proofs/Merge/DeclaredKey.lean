import Mathlib.Data.List.DropRight
import TableMapper.Proofs.Merge.MemberCode
import TableMapper.Proofs.Unit.Heading

/-!
# The key that is read of a member

A merge reads the key of a member by looking for certain characters and words:
it passes the annotations in front and takes what follows up to the first brace,
`=` or semicolon. So **the key that is read is the one that is declared, if no
such character and no word that introduces a type stands in the way**
(`MemberCode.IsPlain.ofCode_code`). An annotation of a parameter with a named
argument does, and so does a type of which the name ends with such a word.
-/

namespace TableMapper

open Source

namespace MemberCode

/-- Annotations in front of a member that are passed: the name stands directly
behind the sign, and holds only letters, digits, underscores and dots. -/
inductive IsLead : List Char → Prop
  | nil : IsLead []
  | blank {c : Char} {rest : List Char} : Text.isBlank c = true → IsLead rest → IsLead (c :: rest)
  | bare {name rest : List Char} : (∀ c ∈ name, MemberKey.isMarkChar c = true) →
      ¬ "interface".toList <+: name →
      (∃ c ∈ rest.head?, Text.isBlank c = true ∨ c = '@') → IsLead rest →
      IsLead ('@' :: (name ++ rest))
  | full {name gap inner rest : List Char} : (∀ c ∈ name, MemberKey.isMarkChar c = true) →
      ¬ "interface".toList <+: name → Text.Blank gap → Text.Balanced '(' ')' inner → IsLead rest →
      IsLead ('@' :: (name ++ (gap ++ '(' :: (inner ++ ')' :: rest))))

/-- **A member that is written plainly.** The annotations in front of everything
else can have any arguments. Behind them nothing looks like the beginning of a
body or initial value, no annotation in front of the name or behind the
parameters has arguments, and no word ends like one that introduces a type. -/
structure IsPlain (d : MemberCode) : Prop where
  isLead : IsLead d.lead
  begins : ∀ c ∈ (d.front ++ d.name).head?, Text.isBlank c = false ∧ c ≠ '@' ∧ c ≠ '('
  head : ∀ c ∈ d.head, c ∉ "\x7b=;".toList
  front : '(' ∉ d.front
  separate : ∀ c ∈ d.front.getLast?, MemberKey.isIdentifierChar c = false
  name : ∀ c ∈ d.name, MemberKey.isIdentifierChar c = true
  parameters : ∀ q ∈ d.parameters, IsSeries "<>".toList q.count q.list
  behind : ')' ∉ d.behind
  words : ∀ word ∈ MemberKey.typeWords, ¬ word.toList <:+: d.head

theorem isLead_of_blank {cs : List Char} (h : Text.Blank cs) : IsLead cs := by
  induction cs with
  | nil => exact .nil
  | cons c cs ih =>
    exact .blank (h c List.mem_cons_self) (ih fun d hd => h d (List.mem_cons_of_mem c hd))

end MemberCode

namespace MemberKey

section

variable {cs rest name front back : List Char} {c : Char}

/-! ## Passing annotations -/

theorem skipMarks_of_none (h : behindMark (Text.trimStart cs) = none) :
    skipMarks cs = Text.trimStart cs := by
  rw [skipMarks]
  split
  · rfl
  next heq => exact absurd (h.symm.trans heq) (by simp)

theorem skipMarks_of_some (h : behindMark (Text.trimStart cs) = some rest) :
    skipMarks cs = skipMarks rest := by
  rw [skipMarks]
  split
  next heq => exact absurd (h.symm.trans heq) (by simp)
  next heq => rw [Option.some.inj (h.symm.trans heq)]

theorem trimStart_trimStart (cs : List Char) :
    Text.trimStart (Text.trimStart cs) = Text.trimStart cs :=
  List.dropWhile_idempotent Text.isBlank cs

theorem skipMarks_trimStart (cs : List Char) : skipMarks (Text.trimStart cs) = skipMarks cs := by
  cases h : behindMark (Text.trimStart cs) with
  | none =>
    rw [skipMarks_of_none h, skipMarks_of_none (by rwa [trimStart_trimStart]), trimStart_trimStart]
  | some rest => rw [skipMarks_of_some h, skipMarks_of_some (by rwa [trimStart_trimStart])]

/-- No annotation type begins where a name ends that does not begin one. -/
theorem not_startsWith_interface (h : ¬ "interface".toList <+: name) (hc : c ∉ "interface".toList)
    (rest : List Char) :
    "interface".toList.isPrefixOf (name ++ c :: rest) = false := by
  rw [Source.isPrefixOf_append_cons hc]
  exact Bool.eq_false_iff.2 fun hprefix => h (List.isPrefixOf_iff_prefix.1 hprefix)

theorem isAlphanumeric_of_isBlank (h : Text.isBlank c = true) : Text.isAlphanumeric c = false := by
  have htable : ∀ span ∈ Text.blanks, ∀ n < span.last + 1 - span.first,
      (Text.Span.anyHas Text.alphabetic (span.first + n) || Text.Span.anyHas Text.numeric
        (span.first + n)) = false := by
    decide +kernel
  obtain ⟨span, hspan, hfirst, hlast⟩ := exists_span_of_anyHas h
  have hletter := htable span hspan (c.toNat - span.first) (by omega)
  rw [show span.first + (c.toNat - span.first) = c.toNat by omega] at hletter
  exact hletter

theorem ne_of_isBlank (h : Text.isBlank c = true) {d : Char}
    (hd : Text.isBlank d = false) : c ≠ d := by
  rintro rfl
  exact Bool.noConfusion (h.symm.trans hd)

theorem isMarkChar_of_isBlank (h : Text.isBlank c = true) : isMarkChar c = false := by
  simp [isMarkChar, isAlphanumeric_of_isBlank h, ne_of_isBlank h (d := '_') (by decide),
    ne_of_isBlank h (d := '.') (by decide)]

theorem isIdentifierChar_of_isBlank (h : Text.isBlank c = true) : isIdentifierChar c = false := by
  simp [isIdentifierChar, isAlphanumeric_of_isBlank h, ne_of_isBlank h (d := '_') (by decide),
    ne_of_isBlank h (d := '$') (by decide)]

/-- An annotation without arguments ends behind its name. -/
theorem behindMark_bare (hname : ∀ c ∈ name, isMarkChar c = true)
    (hinterface : ¬ "interface".toList <+: name)
    (hrest : ∃ c ∈ rest.head?, Text.isBlank c = true ∨ c = '@')
    (harguments : ∀ c ∈ (Text.trimStart rest).head?, c ≠ '(') :
    behindMark ('@' :: (name ++ rest)) = some (Text.trimStart rest) := by
  obtain ⟨c, hc, hkind⟩ := hrest
  obtain ⟨behind, rfl⟩ := List.head?_eq_some_iff.1 (Option.mem_def.1 hc)
  have hmark : isMarkChar c = false := by
    rcases hkind with hblank | rfl
    · exact isMarkChar_of_isBlank hblank
    · decide
  have hfirst : c ∉ "interface".toList := by
    rcases hkind with hblank | rfl
    · exact fun hmem => Bool.noConfusion (hblank.symm.trans
        ((by decide : ∀ d ∈ "interface".toList, Text.isBlank d = false) c hmem))
    · decide
  rw [behindMark, if_neg (by rw [not_startsWith_interface hinterface hfirst]; decide),
    List.dropWhile_append_of_pos hname, List.dropWhile_cons_of_neg (by simp [hmark])]
  simp only
  split
  next heq => exact absurd rfl (harguments '(' (by rw [heq]; rfl))
  · rfl

/-- One with arguments ends with the parenthesis that closes them. -/
theorem behindMark_full (hname : ∀ c ∈ name, isMarkChar c = true)
    (hinterface : ¬ "interface".toList <+: name)
    {gap inner : List Char} (hgap : Text.Blank gap) (hinner : Text.Balanced '(' ')' inner)
    (rest : List Char) :
    behindMark ('@' :: (name ++ (gap ++ '(' :: (inner ++ ')' :: rest)))) = some rest := by
  have hskip : Text.trimStart
      ((name ++ (gap ++ '(' :: (inner ++ ')' :: rest))).dropWhile isMarkChar)
      = '(' :: (inner ++ ')' :: rest) := by
    have hdrop : (gap ++ '(' :: (inner ++ ')' :: rest)).dropWhile isMarkChar
        = gap ++ '(' :: (inner ++ ')' :: rest) := by
      cases gap with
      | nil => exact List.dropWhile_cons_of_neg (by decide)
      | cons c gap =>
        exact List.dropWhile_cons_of_neg
          (by simp [isMarkChar_of_isBlank (hgap c List.mem_cons_self)])
    rw [List.dropWhile_append_of_pos hname, hdrop, Text.trimStart_blanks_append hgap,
      Text.trimStart_cons (by decide)]
  have hnone : "interface".toList.isPrefixOf
      (name ++ (gap ++ '(' :: (inner ++ ')' :: rest))) = false := by
    cases gap with
    | nil => exact not_startsWith_interface hinterface (by decide) _
    | cons c gap =>
      refine not_startsWith_interface hinterface (fun hmem => ?_) _
      have hblank := hgap c List.mem_cons_self
      rw [(by decide : ∀ d ∈ "interface".toList, Text.isBlank d = false) c hmem] at hblank
      exact Bool.noConfusion hblank
  rw [behindMark, if_neg (by rw [hnone]; decide), hskip]
  exact congrArg some (Text.dropBalanced_balanced (by decide) hinner rest)

/-! ## Names and words of a head -/

/-- The last identifier of some code is the name in front of what holds none. -/
theorem lastIdentifier?_append (hne : name ≠ []) (hname : ∀ c ∈ name, isIdentifierChar c = true)
    (hfront : ∀ c ∈ front.getLast?, isIdentifierChar c = false)
    (hback : ∀ c ∈ back, isIdentifierChar c = false) :
    lastIdentifier? (front ++ (name ++ back)) = some (String.ofList name) := by
  have hskip : (front ++ (name ++ back)).reverse.dropWhile (!isIdentifierChar ·)
      = name.reverse ++ front.reverse := by
    rw [← List.append_assoc, List.reverse_append,
      List.dropWhile_append_of_pos fun c hc => by
        simp [hback c (List.mem_reverse.1 hc)], List.reverse_append]
    cases hlast : name.reverse with
    | nil => exact absurd (List.reverse_eq_nil_iff.1 hlast) hne
    | cons c letters =>
      have hc : isIdentifierChar c = true :=
        hname c (List.mem_reverse.1 (by rw [hlast]; exact List.mem_cons_self))
      rw [List.cons_append, List.dropWhile_cons_of_neg (by simp [hc])]
  have hstop : front.reverse.takeWhile isIdentifierChar = [] := by
    cases hlast : front.reverse with
    | nil => rfl
    | cons c letters =>
      refine List.takeWhile_cons_of_neg ?_
      rw [hfront c (by rw [List.getLast?_eq_head?_reverse, hlast]; rfl)]
      decide
  have htake : (name.reverse ++ front.reverse).takeWhile isIdentifierChar = name.reverse := by
    rw [List.takeWhile_append_of_pos fun c hc => hname c (List.mem_reverse.1 hc),
      hstop, List.append_nil]
  rw [lastIdentifier?, hskip, htake]
  split
  next heq => exact absurd (List.reverse_eq_nil_iff.1 heq) hne
  · rw [List.reverse_reverse]

theorem innerType?_eq_none (h : ∀ word ∈ typeWords, ¬ word.toList <:+: cs) :
    innerType? cs = none := by
  refine List.findSome?_eq_none_iff.2 fun word hword => ?_
  have hnone : Text.occursIn word.toList cs = false :=
    Bool.eq_false_iff.2 fun hoccurs => h word hword (Text.occursIn_iff.1 hoccurs)
  rw [Option.isSome_eq_false_iff.1 hnone |> Option.isNone_iff_eq_none.1]
  rfl

end

end MemberKey

namespace MemberCode

section

variable {lead rest : List Char} {d : MemberCode}

/-! ## Reading a plain member -/

/-- No arguments begin behind annotations, if none begin behind them all. -/
theorem IsLead.head?_trimStart (h : IsLead lead)
    (hrest : ∀ c ∈ rest.head?, Text.isBlank c = false ∧ c ≠ '@' ∧ c ≠ '(') :
    ∀ c ∈ (Text.trimStart (lead ++ rest)).head?, c ≠ '(' := by
  have hsign : ∀ cs : List Char, ∀ c ∈ (Text.trimStart ('@' :: cs)).head?, c ≠ '(' := by
    intro cs
    rw [Text.trimStart_cons (by decide)]
    rintro c ⟨⟩
    decide
  induction h with
  | nil =>
    cases rest with
    | nil => simp [Text.trimStart]
    | cons c rest =>
      rw [List.nil_append, Text.trimStart_cons (hrest c rfl).1]
      exact fun d hd => (hrest d hd).2.2
  | blank hblank _ ih =>
    rw [List.cons_append, Text.trimStart, List.dropWhile_cons_of_pos hblank]
    exact ih
  | bare => exact hsign _
  | full => exact hsign _

/-- **Annotations in front of a member are passed.** -/
theorem IsLead.skipMarks (h : IsLead lead) (hne : rest ≠ [])
    (hrest : ∀ c ∈ rest.head?, Text.isBlank c = false ∧ c ≠ '@' ∧ c ≠ '(') :
    MemberKey.skipMarks (lead ++ rest) = rest := by
  induction h with
  | nil =>
    obtain ⟨c, behind, rfl⟩ := List.exists_cons_of_ne_nil hne
    obtain ⟨hblank, hsign, -⟩ := hrest c rfl
    have hstart : Text.trimStart (c :: behind) = c :: behind := Text.trimStart_cons hblank behind
    rw [List.nil_append, MemberKey.skipMarks_of_none, hstart]
    rw [hstart, MemberKey.behindMark]
    rintro behind' heq
    exact hsign (List.cons.inj heq).1
  | @blank c lead hblank _ ih =>
    have hstart : Text.trimStart (c :: (lead ++ rest)) = Text.trimStart (lead ++ rest) :=
      List.dropWhile_cons_of_pos hblank
    rw [List.cons_append, ← MemberKey.skipMarks_trimStart, hstart,
      MemberKey.skipMarks_trimStart, ih]
  | @bare name lead hname hinterface hlead hrestLead ih =>
    have hstart := Text.trimStart_cons (show Text.isBlank '@' = false by decide)
      (name ++ (lead ++ rest))
    have hbegins : ∃ c ∈ (lead ++ rest).head?, Text.isBlank c = true ∨ c = '@' := by
      obtain ⟨c, hc, hkind⟩ := hlead
      obtain ⟨behind, rfl⟩ := List.head?_eq_some_iff.1 (Option.mem_def.1 hc)
      exact ⟨c, rfl, hkind⟩
    have hbehind := MemberKey.behindMark_bare hname hinterface hbegins
      (hrestLead.head?_trimStart hrest)
    rw [List.cons_append, List.append_assoc, MemberKey.skipMarks_of_some (by rw [hstart, hbehind]),
      MemberKey.skipMarks_trimStart, ih]
  | @full name gap inner lead hname hinterface hgap hinner _ ih =>
    have hcut : '@' :: (name ++ (gap ++ '(' :: (inner ++ ')' :: lead))) ++ rest
        = '@' :: (name ++ (gap ++ '(' :: (inner ++ ')' :: (lead ++ rest)))) := by simp
    have hbehind := MemberKey.behindMark_full hname hinterface hgap hinner (lead ++ rest)
    rw [hcut, MemberKey.skipMarks_of_some (by rw [Text.trimStart_cons (by decide), hbehind]), ih]

/-- The head of a plain member. -/
theorem IsPlain.takeWhile_code (h : d.IsPlain) (hmember : d.IsMember) :
    (MemberKey.skipMarks d.code).takeWhile (fun c => c != '\x7b' && c != '=' && c != ';')
      = d.head := by
  have hne : d.head ++ d.ending ≠ [] := by simp [MemberCode.head, hmember.name_ne_nil]
  have hbegins : ∀ c ∈ (d.head ++ d.ending).head?, Text.isBlank c = false ∧ c ≠ '@' ∧ c ≠ '(' := by
    rw [MemberCode.head, ← List.append_assoc, List.append_assoc,
      List.head?_append_of_ne_nil _ (by simp [hmember.name_ne_nil])]
    exact h.begins
  have hpass : ∀ c ∈ d.head, (c != '\x7b' && c != '=' && c != ';') = true := by
    intro c hc
    have hne : ∀ e ∈ "\x7b=;".toList, c ≠ e := fun e he heq => h.head c hc (heq ▸ he)
    simp [hne '\x7b' (by decide), hne '=' (by decide), hne ';' (by decide)]
  have hstop : d.ending.takeWhile (fun c => c != '\x7b' && c != '=' && c != ';') = [] := by
    obtain ⟨c, rest, hending, hc⟩ := hmember.ending.exists_cons
    rw [hending]
    exact List.takeWhile_cons_of_neg
      ((by decide : ∀ c ∈ "\x7b=;".toList, ¬ (c != '\x7b' && c != '=' && c != ';') = true) c hc)
  rw [code, h.isLead.skipMarks hne hbegins, List.takeWhile_append_of_pos hpass,
    hstop, List.append_nil]

theorem IsPlain.lastIdentifier? (h : d.IsPlain) (hne : d.name ≠ []) {back : List Char}
    (hback : ∀ c ∈ back, MemberKey.isIdentifierChar c = false) :
    MemberKey.lastIdentifier? (d.front ++ (d.name ++ back)) = some (String.ofList d.name) :=
  MemberKey.lastIdentifier?_append hne h.name h.separate hback

/-- No parenthesis stands in front of the parameters. -/
theorem IsPlain.not_mem_front (h : d.IsPlain) : '(' ∉ d.front ++ d.name := by
  rw [List.mem_append, not_or]
  exact ⟨h.front, fun hmem => absurd (h.name '(' hmem) (by decide)⟩

/-- A field has no parenthesis in its head, and ends with its name. -/
theorem IsPlain.ofCode_field (h : d.IsPlain) (hmember : d.IsMember) (hnone : d.parameters = none) :
    MemberKey.ofCode d.code = some d.key := by
  have hhead : d.head = d.front ++ (d.name ++ d.behind) := by simp [MemberCode.head, tail, hnone]
  have hbrackets := hmember.brackets hnone
  have hpass : ∀ c ∈ d.head, (c != '(') = true := by
    intro c hc
    rw [bne_iff_ne]
    rintro rfl
    rw [hhead, ← List.append_assoc, List.mem_append] at hc
    exact hc.elim h.not_mem_front fun hc => absurd (hbrackets '(' hc) (by decide)
  have hback : ∀ c ∈ d.behind, MemberKey.isIdentifierChar c = false := by
    intro c hc
    obtain hblank | rfl | rfl := hbrackets c hc
    · exact MemberKey.isIdentifierChar_of_isBlank hblank
    · decide
    · decide
  have hname := h.lastIdentifier? hmember.name_ne_nil hback
  rw [← hhead] at hname
  rw [MemberKey.ofCode, h.takeWhile_code hmember, MemberKey.innerType?_eq_none h.words,
    List.dropWhile_eq_nil_iff.2 hpass, hname, key, hnone]
  rfl

/-- A method has its name in front of the first parenthesis, and its parameters
between that and the last one. -/
theorem IsPlain.ofCode_method (h : d.IsPlain) (hmember : d.IsMember) {q : ParameterCode}
    (hq : d.parameters = some q) :
    MemberKey.ofCode d.code = some d.key := by
  have hgap : Text.Blank q.gap := (hmember.parameters q hq).1
  have hcut : d.head = (d.front ++ (d.name ++ q.gap)) ++ '(' :: (q.list ++ ')' :: d.behind) := by
    simp [MemberCode.head, tail, hq]
  have hpass : ∀ c ∈ d.front ++ (d.name ++ q.gap), (c != '(') = true := by
    intro c hc
    rw [bne_iff_ne]
    rintro rfl
    rw [← List.append_assoc, List.mem_append] at hc
    exact hc.elim h.not_mem_front (hgap.not_mem (by decide))
  have hfront : d.head.takeWhile (· != '(') = d.front ++ (d.name ++ q.gap) := by
    rw [hcut, List.takeWhile_append_of_pos hpass, List.takeWhile_cons_of_neg (by decide),
      List.append_nil]
  have hrest : d.head.dropWhile (· != '(') = '(' :: (q.list ++ ')' :: d.behind) := by
    rw [hcut, List.dropWhile_append_of_pos hpass, List.dropWhile_cons_of_neg (by decide)]
  have hname := h.lastIdentifier? hmember.name_ne_nil fun c hc =>
    MemberKey.isIdentifierChar_of_isBlank (hgap c hc)
  rw [MemberKey.ofCode, h.takeWhile_code hmember, MemberKey.innerType?_eq_none h.words]
  simp only
  rw [hfront, hrest]
  simp only
  rw [hname, MemberKey.parameterList, Text.splitLast_append h.behind]
  simp only
  rw [(h.parameters q hq).length_listItems (by decide) (by decide), key, hq]
  rfl

/-- **The key of a plain member is read as it is declared.** -/
theorem IsPlain.ofCode_code (h : d.IsPlain) (hmember : d.IsMember) :
    MemberKey.ofCode d.code = some d.key := by
  cases hq : d.parameters with
  | none => exact h.ofCode_field hmember hq
  | some q => exact h.ofCode_method hmember hq

end

end MemberCode

end TableMapper
