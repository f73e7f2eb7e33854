import TableMapper.Proofs.Text.Items
import TableMapper.Proofs.Text.Occurrences
import TableMapper.Proofs.Unit.Clauses

/-!
# The header of a type in an existing file

Behind the name of a type stand its parameters, the types that it extends and
those that it implements (`TypeHeader`), in whatever layout their author has
chosen. Line ends count: **the types of a header are read exactly if all of
them stand on the line of the first** (`TypeHeader.clauses_code`). A header with
a longer list is read like one that names no types at all. Where the lists
begin and end, how they are indented, and which brackets and blanks stand in
them makes no difference.
-/

namespace TableMapper.Source

/-- A list of types with the word that introduces it. -/
structure TypeClause where
  /-- What stands in front of the word. -/
  gap : List Char
  /-- What stands between the word and the list. -/
  space : List Char
  list : List Char
  entries : List (List Char)

/-- **What stands between the name of a type and its opening brace**, as far
as its code goes. -/
structure TypeHeader where
  parameters : List Char := []
  extended : Option TypeClause := none
  implemented : Option TypeClause := none
  behind : List Char := []

/-- No word in front of a blank ends with the one that introduces the
implemented types. -/
def Unmistaken (cs : List Char) : Prop :=
  ∀ blank, Text.isBlank blank = true → ¬ "implements".toList ++ [blank] <:+: cs

theorem unmistaken_of_not_isInfix {cs : List Char} (h : ¬ "implements".toList <:+: cs) :
    Unmistaken cs :=
  fun _ _ hpart => h (List.IsInfix.trans (List.prefix_append _ _).isInfix hpart)

namespace TypeClause

/-- The clause with its word. -/
def code (word : String) (c : TypeClause) : List Char :=
  c.gap ++ (word.toList ++ (c.space ++ c.list))

/-- The names of the types. -/
def names (c : TypeClause) : List String :=
  c.entries.map String.ofList

/-- The types all stand on one line. -/
def OnOneLine (c : TypeClause) : Prop :=
  '\n' ∉ c.list

instance (c : TypeClause) : Decidable c.OnOneLine :=
  inferInstanceAs (Decidable ('\n' ∉ c.list))

structure IsClause (c : TypeClause) : Prop where
  gap : Text.Blank c.gap
  space : Text.Blank c.space
  space_ne_nil : c.space ≠ []
  list : Text.IsList c.list c.entries
  unmistaken : Unmistaken c.list

end TypeClause

namespace TypeHeader

/-- The lists of types, with their words. -/
def lists (h : TypeHeader) : List Char :=
  (h.extended.elim [] (TypeClause.code "extends")) ++ h.implemented.elim []
    (TypeClause.code "implements")

def code (h : TypeHeader) : List Char :=
  h.parameters ++ (h.lists ++ h.behind)

/-- All the types that are named stand on the line of the first of their
list. -/
def OnOneLine (h : TypeHeader) : Prop :=
  (∀ c ∈ h.extended, c.OnOneLine) ∧ ∀ c ∈ h.implemented, c.OnOneLine

instance (h : TypeHeader) : Decidable h.OnOneLine :=
  inferInstanceAs (Decidable ((∀ c ∈ h.extended, c.OnOneLine) ∧ ∀ c ∈ h.implemented, c.OnOneLine))

/-- The types that are named. -/
def named (h : TypeHeader) : Clauses where
  extends? := h.extended.elim [] (·.names)
  implements := h.implemented.elim [] (·.names)

/-- **A header**: parameters in brackets, and lists of types with blanks
between their parts. -/
structure IsHeader (h : TypeHeader) : Prop where
  parameters : h.parameters = [] ∨ ∃ blanks inner,
    h.parameters = blanks ++ '<' :: (inner ++ ['>']) ∧
    Text.Blank blanks ∧ Text.Balanced '<' '>' inner
  extended : ∀ c ∈ h.extended, c.IsClause
  implemented : ∀ c ∈ h.implemented, c.IsClause
  /-- A blank or a bracket stands between the two lists. -/
  apart : ∀ c ∈ h.extended, ∀ d ∈ h.implemented, Unmistaken (c.list ++ d.gap) ∧
    ∀ last ∈ (c.list ++ d.gap).getLast?, last ∉ "implements".toList
  behind : Text.Blank h.behind

end TypeHeader

section

variable {cs space list more rest : List Char} {c d : TypeClause} {h : TypeHeader}

/-! ## Lists behind a word -/

theorem behindKeyword_space (word : String) (hspace : Text.Blank space)
    (hne : space ≠ []) (rest : List Char) :
    behindKeyword word (word.toList ++ (space ++ rest)) = some (Text.trimStart rest) := by
  obtain ⟨blank, space, rfl⟩ := List.exists_cons_of_ne_nil hne
  have hbegins : word.toList.isPrefixOf (word.toList ++ (blank :: space ++ rest)) = true :=
    List.isPrefixOf_iff_prefix.2 (List.prefix_append _ _)
  rw [behindKeyword, if_pos hbegins, ← String.length_toList, List.drop_left]
  show (if Text.isBlank blank = true then some (Text.trimStart (space ++ rest)) else none) = _
  rw [if_pos (hspace blank List.mem_cons_self),
    Text.trimStart_blanks_append fun e he => hspace e (List.mem_cons_of_mem blank he)]

theorem trimStart_of_trim (htrim : Text.trim cs = cs) : Text.trimStart cs = cs := by
  cases cs with
  | nil => rfl
  | cons c cs => exact Text.trimStart_cons (Text.head?_of_trim htrim c rfl) cs

theorem TypeClause.IsClause.trim_list (hc : c.IsClause) : Text.trim c.list = c.list :=
  hc.list.trim

theorem TypeClause.IsClause.typeList (hc : c.IsClause) : typeList c.list = c.names := by
  rw [Source.typeList, Text.listItems_of_isList hc.list]
  rfl

/-- The implemented types are read if they stand on one line. -/
theorem TypeClause.IsClause.implementsList? (hc : c.IsClause) :
    implementsList? ("implements".toList ++ (c.space ++ c.list))
      = if c.OnOneLine then some c.names else none := by
  have htrim : Text.trimEnd c.list = c.list := by
    have hlist := hc.trim_list
    rwa [Text.trim, trimStart_of_trim hlist] at hlist
  rw [Source.implementsList?, behindKeyword_space "implements" hc.space hc.space_ne_nil,
    Option.bind_some, trimStart_of_trim hc.trim_list]
  show (if (Text.trimEnd c.list).contains '\n' = true then none else some
      (Source.typeList (Text.trimEnd c.list))) = _
  rw [htrim, hc.typeList]
  by_cases hline : c.OnOneLine
  · rw [if_neg (by simpa [OnOneLine] using hline), if_pos hline]
  · rw [if_pos (by simpa [OnOneLine] using hline), if_neg hline]

/-! ## Where the extended types end -/

/-- A place at which the header goes on, but not with implemented types. -/
def Passed (cs : List Char) : Prop :=
  Text.trimStart cs ≠ [] ∧ implementsList? (Text.trimStart cs) = none

theorem passed_of (hne : Text.trimStart cs ≠ [])
    (hword : ∀ blank behind, Text.trimStart cs = "implements".toList ++ blank :: behind →
      Text.isBlank blank = true → False) : Passed cs :=
  ⟨hne, implementsList?_eq_none hword⟩

/-- The extended types do not go on behind a line end. -/
theorem extendsFrom_newline
    (hpass : ∀ front back, cs = front ++ back → Passed (back ++ '\n' :: rest))
    (hline : '\n' ∉ cs) (read : List Char) : extendsFrom read (cs ++ '\n' :: rest) = none := by
  rw [extendsFrom_append (fun front back hcut _ => hpass front back hcut) hline]
  obtain ⟨hne, hnone⟩ := hpass cs [] (List.append_nil cs).symm
  rw [List.nil_append] at hne hnone
  rw [extendsFrom, hnone]
  simp [hne]

theorem trimStart_append (hne : Text.trimStart cs ≠ []) (rest : List Char) :
    Text.trimStart (cs ++ rest) = Text.trimStart cs ++ rest := by
  rw [Text.trimStart, List.dropWhile_append]
  exact if_neg fun hnil => hne (List.isEmpty_iff.1 hnil)

/-- Behind blanks a part of a text begins that ends with no blank. -/
theorem trimStart_ne_nil {back : List Char} (hlast : ∀ c ∈ cs.getLast?, Text.isBlank c = false)
    (hback : back <:+ cs) (hne : back ≠ []) :
    Text.trimStart back ≠ [] := by
  intro hnil
  obtain ⟨front, rfl⟩ := hback
  have hblank := List.dropWhile_eq_nil_iff.1 hnil (back.getLast hne) (List.getLast_mem hne)
  have hend : back.getLast hne ∈ (front ++ back).getLast? := by
    rw [List.getLast?_append_of_ne_nil front hne, List.getLast?_eq_some_getLast hne]
    rfl
  rw [hlast _ hend] at hblank
  exact Bool.noConfusion hblank

/-- In a list no implemented types begin. -/
theorem TypeClause.IsClause.passed (hc : c.IsClause) {back : List Char}
    (hback : back <:+ c.list) (hne : back ≠ []) :
    Passed back := by
  refine passed_of (trimStart_ne_nil (Text.getLast?_of_trim hc.trim_list) hback hne)
    fun blank behind hstart hblank => ?_
  have hlist : Text.trimStart back <:+: c.list :=
    ((List.dropWhile_suffix Text.isBlank).trans hback).isInfix
  refine hc.unmistaken blank hblank (List.IsInfix.trans ?_ hlist)
  exact ⟨[], behind, by rw [hstart]; simp⟩

/-- In a list in front of implemented types these do not begin. -/
theorem passed_of_apart {back gap : List Char} (hcs : ∀ c ∈ cs.getLast?, Text.isBlank c = false)
    (hback : back <:+ cs) (hne : back ≠ []) (hword : Unmistaken (cs ++ gap))
    (hlast : ∀ last ∈ (cs ++ gap).getLast?, last ∉ "implements".toList) (rest : List Char) :
    Passed (back ++ (gap ++ rest)) := by
  have hstart := trimStart_ne_nil hcs hback hne
  refine passed_of (by rw [trimStart_append hstart]; simp [hstart])
    fun blank behind heq hblank => ?_
  rw [trimStart_append hstart] at heq
  -- the list with the gap ends with a character that is not in the word
  obtain ⟨stem, last, hend⟩ : ∃ stem last, Text.trimStart back ++ gap = stem ++ [last] :=
    ⟨_, _, (List.dropLast_concat_getLast (by simp [hstart])).symm⟩
  obtain ⟨front, hfront⟩ : ∃ front, cs ++ gap = front ++ (stem ++ [last]) := by
    obtain ⟨front, hfront⟩ := (List.dropWhile_suffix Text.isBlank).trans hback
    exact ⟨front, by rw [← hend, ← List.append_assoc, Text.trimStart, hfront]⟩
  have hmem : last ∉ "implements".toList :=
    hlast last (by rw [hfront, ← List.append_assoc, List.getLast?_concat]; rfl)
  rw [← List.append_assoc, hend, List.append_assoc, List.singleton_append] at heq
  obtain ⟨more, rfl⟩ := Text.prefix_of_not_mem hmem ⟨blank :: behind, heq.symm⟩
  rw [List.append_assoc] at heq
  -- so the blank behind the word is part of them
  have hblanks := List.append_cancel_left heq
  obtain ⟨tail, htail⟩ : ∃ tail, more ++ [last] = blank :: tail := by
    cases more with
    | nil => exact ⟨[], by rw [List.nil_append, (List.cons.inj hblanks).1]⟩
    | cons e more => exact ⟨more ++ [last], by rw [List.cons_append, (List.cons.inj hblanks).1]⟩
  refine hword blank hblank ⟨front, tail, ?_⟩
  rw [hfront, List.append_assoc "implements".toList, htail]
  simp

/-- A list is not cut when what stands in front of it is trimmed. -/
theorem TypeClause.IsClause.trim_append (hc : c.IsClause) (front : List Char) :
    ∃ more, Text.trimEnd (Text.trimStart (front ++ c.list)) = more ++ c.list := by
  obtain ⟨more, hmore⟩ : ∃ more, Text.trimStart (front ++ c.list) = more ++ c.list := by
    by_cases hblank : Text.trimStart front = []
    · have hfront : Text.Blank front := List.dropWhile_eq_nil_iff.1 hblank
      exact ⟨[], by
        rw [Text.trimStart_blanks_append hfront, trimStart_of_trim hc.trim_list, List.nil_append]⟩
    · exact ⟨Text.trimStart front, trimStart_append hblank _⟩
  obtain ⟨stem, last, hlast⟩ : ∃ stem last, c.list = stem ++ [last] :=
    ⟨_, _, (List.dropLast_concat_getLast hc.list.ne_nil).symm⟩
  have hblank : Text.isBlank last = false :=
    Text.getLast?_of_trim hc.trim_list last (by rw [hlast, List.getLast?_concat]; rfl)
  exact ⟨more, by rw [hmore, hlast, ← List.append_assoc, Text.trimEnd_concat hblank]⟩

/-- Implemented types with a line end among them are not read, whatever stands
between the word and the list. -/
theorem TypeClause.IsClause.implementsList?_line (hc : c.IsClause)
    (hline : ¬ c.OnOneLine) {blank : Char}
    (hblank : Text.isBlank blank = true) (front : List Char) :
    Source.implementsList? ("implements".toList ++ blank :: (front ++ c.list)) = none := by
  obtain ⟨more, hmore⟩ := hc.trim_append front
  have hmem : '\n' ∈ more ++ c.list := List.mem_append_right more (by simpa [OnOneLine] using hline)
  rw [Source.implementsList?, ← List.singleton_append (x := blank),
    behindKeyword_space "implements" (by simpa [Text.Blank] using hblank) (List.cons_ne_nil _ _),
    Option.bind_some]
  show (if (Text.trimEnd (Text.trimStart (front ++ c.list))).contains '\n' = true then none else _)
      = none
  rw [hmore, if_pos (by simpa using hmem)]

/-- Implemented types with a line end among them are not read, wherever their
word is looked for. -/
theorem TypeClause.IsClause.passed_line (hc : c.IsClause) (hline : ¬ c.OnOneLine) {back : List Char}
    (hback : back <:+ c.code "implements") (hne : back ≠ []) : Passed back := by
  have hlast : ∀ e ∈ (c.code "implements").getLast?, Text.isBlank e = false := by
    intro e he
    rw [TypeClause.code, ← List.append_assoc, ← List.append_assoc,
      List.getLast?_append_of_ne_nil _ hc.list.ne_nil] at he
    exact Text.getLast?_of_trim hc.trim_list e he
  refine ⟨trimStart_ne_nil hlast hback hne, ?_⟩
  obtain ⟨front, hfront⟩ := (List.dropWhile_suffix Text.isBlank).trans hback
  rw [TypeClause.code, ← List.append_assoc, ← List.append_assoc] at hfront
  -- in the list the word does not stand
  have hinside : ∀ between, c.list = between ++ Text.trimStart back →
      Source.implementsList? (Text.trimStart back) = none := by
    intro between hlist
    refine implementsList?_eq_none fun blank behind hstart hblank => hc.unmistaken blank hblank ?_
    exact ⟨between, behind, by rw [hlist, hstart]; simp⟩
  rcases List.append_eq_append_iff.1 hfront with ⟨between, hbetween, htail⟩ | ⟨between, -, htail⟩
  · rcases List.eq_nil_or_concat between with rfl | ⟨stem, blank, rfl⟩
    · exact hinside [] htail.symm
    · -- a blank stands in front of the list, so the word ends before it
      rw [List.concat_eq_append] at hbetween htail
      have hblank : Text.isBlank blank = true := by
        refine hc.space blank (List.mem_of_getLast? ?_)
        rw [← List.getLast?_append_of_ne_nil (c.gap ++ "implements".toList) hc.space_ne_nil,
          hbetween, ← List.append_assoc, List.getLast?_concat]
      have hword : blank ∉ "implements".toList := fun hmem =>
        absurd hblank
          (by rw [(by decide : ∀ e ∈ "implements".toList, Text.isBlank e = false) blank hmem]; simp)
      cases hkeyword : behindKeyword "implements" (Text.trimStart back) with
      | none =>
        rw [Source.implementsList?, hkeyword]
        rfl
      | some rest =>
        obtain ⟨first, behind, hstart, hfirst⟩ := exists_of_behindKeyword hkeyword
        rw [show Text.trimStart back = _ from htail, List.append_assoc,
          List.singleton_append] at hstart
        obtain ⟨more, rfl⟩ := Text.prefix_of_not_mem hword ⟨first :: behind, hstart.symm⟩
        rw [List.append_assoc] at hstart
        have hcut := List.append_cancel_left hstart
        obtain ⟨inner, rfl⟩ : ∃ inner, behind = inner ++ c.list := by
          cases more with
          | nil => exact ⟨[], (List.cons.inj hcut).2.symm⟩
          | cons e more => exact ⟨more ++ [blank], by rw [← (List.cons.inj hcut).2]; simp⟩
        rw [show Text.trimStart back = _ from htail, List.append_assoc, List.append_assoc,
          List.singleton_append, hcut]
        exact hc.implementsList?_line hline hfirst inner
  · exact hinside between htail

/-! ## The clauses of a header -/

/-- Types that are extended, with none implemented. -/
theorem TypeClause.IsClause.extendsFrom (hc : c.IsClause) :
    Source.extendsFrom [] c.list = if c.OnOneLine then some { extends? := c.names } else none := by
  by_cases hline : c.OnOneLine
  · have hread := @extendsFrom_append c.list [] (fun front back hcut hne => by
      rw [List.append_nil]
      exact hc.passed ⟨front, hcut.symm⟩ hne) hline []
    rw [List.append_nil, List.append_nil] at hread
    rw [hread, if_pos hline, Source.extendsFrom]
    simp [Text.trimStart, hc.typeList]
  · obtain ⟨front, back, hlist, hfront⟩ :=
      List.eq_append_cons_of_mem (show '\n' ∈ c.list by simpa [OnOneLine] using hline)
    rw [if_neg hline, hlist]
    refine extendsFrom_newline (fun before behind hcut => ?_) hfront []
    exact hc.passed ⟨before, by rw [hlist, hcut]; simp⟩ (by simp)

/-- Types that are extended, in front of those that are implemented. -/
theorem extendsFrom_both (hc : c.IsClause) (hd : d.IsClause) (hapart : Unmistaken (c.list ++ d.gap))
    (hlast : ∀ last ∈ (c.list ++ d.gap).getLast?, last ∉ "implements".toList) :
    extendsFrom [] (c.list ++ d.code "implements")
      = if c.OnOneLine ∧ d.OnOneLine then some
        { extends? := c.names, implements := d.names } else none := by
  have hends := Text.getLast?_of_trim hc.trim_list
  have hpass : ∀ front back, c.list = front ++ back → back ≠ [] →
      Passed (back ++ d.code "implements") :=
    fun front back hcut hne => passed_of_apart hends ⟨front, hcut.symm⟩ hne hapart hlast _
  by_cases hline : c.OnOneLine
  · rw [extendsFrom_append hpass hline, List.append_nil]
    by_cases hline' : d.OnOneLine
    · have hstart : Text.trimStart (d.code "implements")
          = "implements".toList ++ (d.space ++ d.list) := by
        rw [TypeClause.code, Text.trimStart_blanks_append hd.gap]
        exact Text.trimStart_cons (by decide) _
      have hread : implementsList? (Text.trimStart (d.code "implements")) = some d.names := by
        rw [hstart, hd.implementsList?, if_pos hline']
      rw [extendsFrom_implements (by rw [hstart]; simp) hread, List.reverse_reverse, hc.typeList,
        if_pos ⟨hline, hline'⟩]
    · obtain ⟨front, back, hcode, hfront⟩ :
          ∃ front back, d.code "implements" = front ++ '\n' :: back ∧ '\n' ∉ front := by
        refine List.eq_append_cons_of_mem ?_
        have hmem : '\n' ∈ d.list := by simpa [TypeClause.OnOneLine] using hline'
        simp [TypeClause.code, hmem]
      rw [if_neg fun hboth => hline' hboth.2, hcode]
      refine extendsFrom_newline (fun before behind hcut => ?_) hfront _
      exact hd.passed_line hline' ⟨before, by rw [hcode, hcut]; simp⟩ (by simp)
  · obtain ⟨front, back, hlist, hfront⟩ :=
      List.eq_append_cons_of_mem (show '\n' ∈ c.list by simpa [TypeClause.OnOneLine] using hline)
    rw [if_neg fun hboth => hline hboth.1, hlist, List.append_assoc, List.cons_append]
    refine extendsFrom_newline (fun before behind hcut => ?_) hfront []
    have hbehind := hpass before (behind ++ '\n' :: back) (by rw [hlist, hcut]; simp) (by simp)
    rwa [List.append_assoc, List.cons_append] at hbehind

theorem trim_of_ends {gap : List Char} (hgap : Text.Blank gap)
    (hfirst : ∀ e ∈ cs.head?, Text.isBlank e = false)
    (hlast : ∀ e ∈ cs.getLast?, Text.isBlank e = false) : Text.trim (gap ++ cs) = cs := by
  rw [Text.trim_blanks_append hgap, Text.trim_eq_self hfirst hlast]

/-- The last character of a clause is the last one of its list. -/
theorem TypeClause.IsClause.getLast? (hc : c.IsClause) (front : List Char) :
    ∀ e ∈ (front ++ c.list).getLast?, Text.isBlank e = false := by
  intro e he
  rw [List.getLast?_append_of_ne_nil front hc.list.ne_nil] at he
  exact Text.getLast?_of_trim hc.trim_list e he

/-- **The lists of a header are read** if they stand on one line. -/
theorem TypeHeader.IsHeader.clausesOf_lists (hh : h.IsHeader) :
    clausesOf (Text.trim (h.lists ++ h.behind)) = if h.OnOneLine then h.named else {} := by
  obtain ⟨parameters, extended, implemented, behind⟩ := h
  obtain ⟨-, hextended, himplemented, hapart, hbehind⟩ := hh
  simp only at hextended himplemented hapart hbehind
  rw [Text.trim_append_blanks hbehind]
  simp only [lists, OnOneLine, named]
  cases extended with
  | none =>
    cases implemented with
    | none => simp [clausesOf_nil, Text.trim_of_blank (show Text.Blank [] by decide)]
    | some d =>
      have hd := himplemented d rfl
      have hnone : behindKeyword "extends" ("implements".toList ++ (d.space ++ d.list)) = none :=
        behindKeyword_cons (show "extends".toList = 'e' :: "xtends".toList from rfl) (by decide)
      have htrim : Text.trim (d.code "implements")
          = "implements".toList ++ (d.space ++ d.list) := by
        refine trim_of_ends hd.gap (by rintro e ⟨⟩; decide) ?_
        rw [← List.append_assoc]
        exact hd.getLast? _
      simp only [Option.elim_none, Option.elim_some, List.nil_append, htrim, clausesOf,
        hnone, hd.implementsList?]
      by_cases hline : d.OnOneLine <;> simp [hline]
  | some c =>
    have hc := hextended c rfl
    cases implemented with
    | none =>
      have htrim : Text.trim (c.code "extends") = "extends".toList ++ (c.space ++ c.list) := by
        refine trim_of_ends hc.gap (by rintro e ⟨⟩; decide) ?_
        rw [← List.append_assoc]
        exact hc.getLast? _
      simp only [Option.elim_none, Option.elim_some, List.append_nil, htrim, clausesOf,
        behindKeyword_space "extends" hc.space hc.space_ne_nil, trimStart_of_trim hc.trim_list,
        hc.extendsFrom]
      by_cases hline : c.OnOneLine <;> simp [hline]
    | some d =>
      have hd := himplemented d rfl
      obtain ⟨hunmistaken, hlast⟩ := hapart c rfl d rfl
      have htrim : Text.trim (c.code "extends" ++ d.code "implements")
          = "extends".toList ++ (c.space ++ (c.list ++ d.code "implements")) := by
        have hcut : c.code "extends" ++ d.code "implements"
            = c.gap ++ ("extends".toList ++ (c.space ++ (c.list ++ d.code "implements"))) := by
          simp [TypeClause.code]
        rw [hcut]
        refine trim_of_ends hc.gap (by rintro e ⟨⟩; decide) ?_
        rw [TypeClause.code, ← List.append_assoc, ← List.append_assoc, ← List.append_assoc,
          ← List.append_assoc, ← List.append_assoc]
        exact hd.getLast? _
      have hstart : Text.trimStart (c.list ++ d.code "implements")
          = c.list ++ d.code "implements" := by
        rw [trimStart_append, trimStart_of_trim hc.trim_list]
        rw [trimStart_of_trim hc.trim_list]
        exact hc.list.ne_nil
      simp only [Option.elim_some, htrim, clausesOf,
        behindKeyword_space "extends" hc.space hc.space_ne_nil, hstart,
        extendsFrom_both hc hd hunmistaken hlast]
      by_cases hline : c.OnOneLine <;> by_cases hline' : d.OnOneLine <;> simp [hline, hline']

/-- A header without parameters does not begin with a bracket. -/
theorem TypeHeader.IsHeader.trimStart_ne (hh : h.IsHeader) (more : List Char) :
    Text.trimStart (h.lists ++ h.behind) ≠ '<' :: more := by
  obtain ⟨-, hextended, himplemented, -, hbehind⟩ := hh
  unfold TypeHeader.lists
  cases hc : h.extended with
  | some c =>
    have hcode : (Option.elim (some c) [] (TypeClause.code "extends")) ++ h.implemented.elim []
        (TypeClause.code "implements") ++ h.behind
        = c.gap ++ 'e' :: ("xtends".toList ++ (c.space ++ (c.list ++
          (h.implemented.elim [] (TypeClause.code "implements") ++ h.behind)))) := by
      simp [TypeClause.code]
    rw [hcode, Text.trimStart_blanks_append (hextended c hc).gap, Text.trimStart_cons (by decide)]
    simp
  | none =>
    cases hd : h.implemented with
    | some d =>
      have hcode : (Option.elim none [] (TypeClause.code "extends")) ++
          (Option.elim (some d) [] (TypeClause.code "implements")) ++ h.behind
          = d.gap ++ 'i' :: ("mplements".toList ++ (d.space ++ (d.list ++ h.behind))) := by
        simp [TypeClause.code]
      rw [hcode, Text.trimStart_blanks_append (himplemented d hd).gap,
        Text.trimStart_cons (by decide)]
      simp
    | none =>
      show Text.trimStart h.behind ≠ _
      rw [Text.trimStart_of_blank hbehind]
      simp

/-- **The types of a header are read exactly if each list stands on one
line.** Otherwise the header is read as if it named none. -/
theorem TypeHeader.IsHeader.clauses_code (hh : h.IsHeader) :
    clauses h.code = if h.OnOneLine then h.named else {} := by
  rw [← hh.clausesOf_lists, TypeHeader.code]
  rcases hh.parameters with hnone | ⟨blanks, inner, hparameters, hblanks, hinner⟩
  · rw [hnone, List.nil_append]
    exact clauses_of_start hh.trimStart_ne
  · have hstart : Text.trimStart (h.parameters ++ (h.lists ++ h.behind))
        = '<' :: (inner ++ '>' :: (h.lists ++ h.behind)) := by
      rw [hparameters, List.append_assoc, Text.trimStart_blanks_append hblanks, List.cons_append,
        List.append_assoc, Text.trimStart_cons (by decide)]
      rfl
    have hdrop := Text.dropBalanced_balanced (show '<' ≠ '>' by decide) hinner (h.lists ++ h.behind)
    unfold clauses
    rw [hstart]
    simp only [hdrop]
    rfl

end

end TableMapper.Source
