import Mathlib.Data.List.Chain
import TableMapper.Proofs.Unit.Names

/-!
# The clauses of a written header

Between the name of a type and the brace behind its header stand the types
that it extends and implements. **They are read as they were written**
(`clausesOf_extends`, `clausesOf_implements`, `clausesOf_both`), with one
exception: the word that introduces the implemented types is looked for
without regard to what stands in front of it, so **a class whose name ends
with that word is cut in front of it** (`clausesOf_cut`).
-/

namespace TableMapper.Source

/-- The clauses of a header without its parameters and the blanks around
it. -/
def clausesOf (cs : List Char) : Clauses :=
  match behindKeyword "extends" cs with
  | some rest => (extendsFrom [] rest).getD {}
  | none => { implements := (implementsList? cs).getD [] }

/-- Several short names, as they are written one behind the other. -/
def writtenList (names : List String) : List Char :=
  [',', ' '].intercalate (names.map String.toList)

section

variable {cs rest word more : List Char} {name : String} {names : List String}

/-! ## Keywords -/

theorem behindKeyword_append (word : String) (rest : List Char) :
    behindKeyword word (word.toList ++ ' ' :: rest) = some (Text.trimStart rest) := by
  have hbegins : word.toList.isPrefixOf (word.toList ++ ' ' :: rest) = true :=
    List.isPrefixOf_iff_prefix.2 (List.prefix_append _ _)
  rw [behindKeyword, if_pos hbegins, ← String.length_toList, List.drop_left]
  rfl

/-- A keyword stands in front of a blank. -/
theorem exists_of_behindKeyword {word : String} (h : behindKeyword word cs = some rest) :
    ∃ blank behind, cs = word.toList ++ blank :: behind ∧ Text.isBlank blank = true := by
  unfold behindKeyword at h
  split at h
  next hbegins =>
    obtain ⟨behind, rfl⟩ := List.isPrefixOf_iff_prefix.1 hbegins
    rw [← String.length_toList, List.drop_left] at h
    cases behind with
    | nil => simp at h
    | cons blank behind =>
      refine ⟨blank, behind, rfl, ?_⟩
      simp only at h
      split at h
      next hblank => exact hblank
      · simp at h
  · simp at h

theorem behindKeyword_eq_none {word : String}
    (h : ∀ blank behind, cs = word.toList ++ blank :: behind → Text.isBlank blank = true → False) :
    behindKeyword word cs = none := by
  cases hword : behindKeyword word cs with
  | none => rfl
  | some rest =>
    obtain ⟨blank, behind, hcs, hblank⟩ := exists_of_behindKeyword hword
    exact (h blank behind hcs hblank).elim

/-- A keyword is not found where another one stands. -/
theorem behindKeyword_cons {word : String} {c d : Char} {letters : List Char}
    (hword : word.toList = d :: letters) (hne : c ≠ d) : behindKeyword word (c :: cs) = none := by
  refine behindKeyword_eq_none fun blank behind hcs _ => ?_
  rw [hword] at hcs
  exact hne (List.cons.inj hcs).1

theorem implementsList?_eq_none
    (h : ∀ blank behind, cs = "implements".toList ++ blank :: behind →
      Text.isBlank blank = true → False) :
    implementsList? cs = none := by
  rw [implementsList?, behindKeyword_eq_none h]
  rfl

/-! ## Written lists -/

theorem writtenList_cons_cons (first second : String) (names : List String) :
    writtenList (first :: second :: names)
      = first.toList ++ ',' :: ' ' :: writtenList (second :: names) := by
  simp [writtenList]

theorem writtenList_singleton (name : String) : writtenList [name] = name.toList := by
  simp [writtenList]

/-- What holds of the characters of all names holds of those of the list. -/
theorem forall_writtenList {p : Char → Prop} (h : ∀ name ∈ names, ∀ c ∈ name.toList, p c)
    (hcomma : p ',')
    (hblank : p ' ') : ∀ c ∈ writtenList names, p c := by
  induction names with
  | nil => exact fun c hc => absurd hc List.not_mem_nil
  | cons first names ih =>
    have hfirst := h first List.mem_cons_self
    have hnames := ih fun name hname => h name (List.mem_cons_of_mem first hname)
    cases names with
    | nil => rwa [writtenList_singleton]
    | cons second names =>
      rw [writtenList_cons_cons]
      intro c hc
      rcases List.mem_append.1 hc with hc | hc
      · exact hfirst c hc
      · rcases List.mem_cons.1 hc with rfl | hc
        · exact hcomma
        · rcases List.mem_cons.1 hc with rfl | hc
          · exact hblank
          · exact hnames c hc

/-- The names of a list, each of which can stand in one. -/
structure AreWritten (names : List String) : Prop where
  ne_nil : names ≠ []
  isItem : ∀ name ∈ names, Text.IsItem name.toList

theorem AreWritten.line (h : AreWritten names) : '\n' ∉ writtenList names := by
  have hline : ∀ c ∈ writtenList names, c ≠ '\n' := by
    refine forall_writtenList (fun name hname c hc heq => ?_) (by decide) (by decide)
    exact absurd ((h.isItem name hname).blank c hc) (by rw [heq]; decide)
  exact fun hmem => hline _ hmem rfl

/-- A written list neither begins nor ends with a blank. -/
theorem AreWritten.ends (h : AreWritten names) :
    (∃ c cs, writtenList names = c :: cs ∧ Text.isBlank c = false) ∧
      ∃ cs c, writtenList names = cs ++ [c] ∧ Text.isBlank c = false := by
  obtain ⟨hne, hitems⟩ := h
  induction names with
  | nil => exact absurd rfl hne
  | cons first names ih =>
    have hfirst := hitems first List.mem_cons_self
    obtain ⟨c, cs, hcs⟩ := List.exists_cons_of_ne_nil hfirst.ne_nil
    have hc : Text.isBlank c = false := hfirst.blank c (by rw [hcs]; exact List.mem_cons_self)
    cases names with
    | nil =>
      rw [writtenList_singleton]
      refine ⟨⟨c, cs, hcs, hc⟩, _, _, (List.dropLast_concat_getLast hfirst.ne_nil).symm, ?_⟩
      exact hfirst.blank _ (List.getLast_mem _)
    | cons second names =>
      obtain ⟨-, behind, d, hbehind, hd⟩ :=
        ih (List.cons_ne_nil _ _) fun name hname => hitems name (List.mem_cons_of_mem first hname)
      rw [writtenList_cons_cons, hbehind, hcs]
      exact ⟨⟨c, _, rfl, hc⟩, c :: cs ++ ',' :: ' ' :: behind, d, by simp, hd⟩

theorem AreWritten.trimStart (h : AreWritten names) :
    Text.trimStart (writtenList names) = writtenList names := by
  obtain ⟨⟨c, cs, hcs, hc⟩, -⟩ := h.ends
  rw [hcs, Text.trimStart_cons hc]

theorem AreWritten.trim (h : AreWritten names) :
    Text.trim (writtenList names) = writtenList names := by
  obtain ⟨-, cs, c, hcs, hc⟩ := h.ends
  rw [Text.trim, h.trimStart, hcs, Text.trimEnd_concat hc]

theorem AreWritten.typeList (h : AreWritten names) : typeList (writtenList names) = names := by
  have hitems : ∀ item ∈ names.map String.toList, Text.IsItem item := by
    intro item hitem
    obtain ⟨name, hname, rfl⟩ := List.mem_map.1 hitem
    exact h.isItem name hname
  rw [Source.typeList, writtenList, Text.listItems_intercalate hitems, List.map_map]
  simp

theorem isChain_comma (h : ∀ c ∈ cs, Text.isBlank c = false) :
    cs.IsChain fun c blank => Text.isBlank blank = true → c = ',' := by
  refine List.Pairwise.isChain (List.pairwise_of_forall_mem_list ?_)
  intro c _ blank hmem hblank
  rw [h blank hmem] at hblank
  exact Bool.noConfusion hblank

/-- **In a written list a blank stands behind a comma.** -/
theorem AreWritten.isChain (h : AreWritten names) :
    (writtenList names).IsChain fun c blank => Text.isBlank blank = true → c = ',' := by
  obtain ⟨hne, hitems⟩ := h
  induction names with
  | nil => exact absurd rfl hne
  | cons first names ih =>
    have hfirst := isChain_comma (hitems first List.mem_cons_self).blank
    cases names with
    | nil => rwa [writtenList_singleton]
    | cons second names =>
      have hnames : AreWritten (second :: names) :=
        ⟨List.cons_ne_nil _ _, fun name hname => hitems name (List.mem_cons_of_mem first hname)⟩
      obtain ⟨⟨c, cs, hcs, hc⟩, -⟩ := hnames.ends
      have hrest := ih hnames.ne_nil hnames.isItem
      rw [hcs] at hrest
      rw [writtenList_cons_cons, List.isChain_append, hcs, List.isChain_cons_cons,
        List.isChain_cons_cons]
      refine ⟨hfirst, ⟨fun _ => rfl, fun hblank => ?_, hrest⟩, ?_⟩
      · rw [hc] at hblank
        exact Bool.noConfusion hblank
      · intro d _ comma hcomma hblank
        obtain rfl : comma = ',' := by simpa using hcomma.symm
        exact absurd hblank (by decide)

/-- The implemented types are on one line. -/
theorem implementsList?_append (h : '\n' ∉ cs) :
    implementsList? ("implements".toList ++ ' ' :: cs) = some (typeList (Text.trim cs)) := by
  have hline : '\n' ∉ Text.trim cs := by
    obtain ⟨front, behind, -, -, hcs⟩ := Text.exists_trim cs
    intro hmem
    refine h ?_
    rw [hcs]
    exact List.mem_append_left behind (List.mem_append_right front hmem)
  rw [implementsList?, behindKeyword_append, Option.bind_some]
  show (if (Text.trim cs).contains '\n' then none else some (typeList (Text.trim cs))) = _
  rw [if_neg (by simpa using hline)]

theorem AreWritten.implementsList? (h : AreWritten names) :
    implementsList? ("implements".toList ++ ' ' :: writtenList names) = some names := by
  rw [implementsList?_append h.line, h.trim, h.typeList]

/-! ## The shortest list of extended types -/

/-- The search for the end of the extended types goes on as long as nothing
else begins. -/
theorem extendsFrom_append (h : ∀ front back, cs = front ++ back → back ≠ [] →
      Text.trimStart (back ++ rest) ≠ [] ∧ implementsList? (Text.trimStart (back ++ rest)) = none)
    (hline : '\n' ∉ cs) (read : List Char) :
    extendsFrom read (cs ++ rest) = extendsFrom (cs.reverse ++ read) rest := by
  induction cs generalizing read with
  | nil => rfl
  | cons c cs ih =>
    obtain ⟨hne, hnone⟩ := h [] (c :: cs) rfl (List.cons_ne_nil c cs)
    obtain ⟨hc, hline⟩ := List.ne_and_not_mem_of_not_mem_cons hline
    have hrest : ∀ front back, cs = front ++ back → back ≠ [] →
        Text.trimStart (back ++ rest) ≠ [] ∧
        implementsList? (Text.trimStart (back ++ rest)) = none :=
      fun front back hcs => h (c :: front) back (congrArg (c :: ·) hcs)
    rw [List.cons_append] at hne hnone ⊢
    rw [extendsFrom, hnone]
    simp only [List.isEmpty_iff, hne, if_false]
    rw [if_neg (by simpa using hc.symm), ih hrest hline, List.reverse_cons, List.append_assoc]
    rfl

/-- **The extended types of a header that goes on with none.** -/
theorem AreWritten.extendsFrom (h : AreWritten names) :
    extendsFrom [] (writtenList names) = some { extends? := names } := by
  have hpass : ∀ front back, writtenList names = front ++ back → back ≠ [] →
      Text.trimStart (back ++ []) ≠ [] ∧
      Source.implementsList? (Text.trimStart (back ++ [])) = none := by
    intro front back hcut hne
    rw [List.append_nil]
    obtain ⟨-, stem, last, hlast, hblank⟩ := h.ends
    constructor
    · -- the last character is no blank, so something is left
      intro hnil
      have hmem : last ∈ back := by
        have hback := congrArg List.getLast? hcut
        rw [hlast, List.getLast?_concat, List.getLast?_append_of_ne_nil _ hne] at hback
        exact List.mem_of_getLast? hback.symm
      have hall := List.dropWhile_eq_nil_iff.1 hnil last hmem
      rw [hblank] at hall
      exact Bool.noConfusion hall
    · refine implementsList?_eq_none fun blank behind hword hspace => ?_
      -- the keyword does not end with a comma
      have hchain := h.isChain
      have hback : back = back.takeWhile Text.isBlank ++
          ("implement".toList ++ 's' :: blank :: behind) := by
        rw [show "implement".toList ++ 's' :: blank :: behind = Text.trimStart back from hword.symm,
          Text.trimStart, List.takeWhile_append_dropWhile]
      rw [hcut, hback] at hchain
      have hpair := List.isChain_append_cons_cons.1 hchain.right_of_append.right_of_append
      exact absurd (hpair.2.1 hspace) (by decide)
  have hread := extendsFrom_append hpass h.line []
  rw [List.append_nil, List.append_nil] at hread
  rw [hread, Source.extendsFrom]
  simp [Text.trimStart, h.typeList]

/-- A word behind which implemented types are found begins there. -/
theorem eq_of_word_append {word behind : List Char} {blank : Char}
    (hword : ∀ c ∈ word, Text.isBlank c = false)
    (h : word ++ ' ' :: more = "implements".toList ++ blank :: behind)
    (hblank : Text.isBlank blank = true) :
    word = "implements".toList := by
  have htake := congrArg (List.takeWhile fun c => !Text.isBlank c) h
  rw [List.takeWhile_append_of_pos (by simpa using hword), List.takeWhile_append_of_pos (by decide),
    List.takeWhile_cons_of_neg (by decide), List.takeWhile_cons_of_neg (by simp [hblank]),
    List.append_nil, List.append_nil] at htake
  exact htake

/-- A word that does not end with the keyword is passed. -/
theorem extendsFrom_word (word : List Char) (hcs : ∀ c ∈ cs, Text.isBlank c = false)
    (hword : ∀ c ∈ word, Text.isBlank c = false)
    (hend : ∀ front back, cs = front ++ back → back ≠ [] → back ++ word ≠ "implements".toList)
    (more : List Char) :
    extendsFrom [] (cs ++ (word ++ ' ' :: more))
      = extendsFrom cs.reverse (word ++ ' ' :: more) := by
  have hpass : ∀ front back, cs = front ++ back → back ≠ [] →
      Text.trimStart (back ++ (word ++ ' ' :: more)) ≠ [] ∧
        implementsList? (Text.trimStart (back ++ (word ++ ' ' :: more))) = none := by
    intro front back hcut hne
    have hback : ∀ c ∈ back ++ word, Text.isBlank c = false := by
      intro c hc
      rcases List.mem_append.1 hc with hc | hc
      · exact hcs c (hcut ▸ List.mem_append_right front hc)
      · exact hword c hc
    obtain ⟨c, rest, rfl⟩ := List.exists_cons_of_ne_nil hne
    rw [List.cons_append, Text.trimStart_cons (hback c List.mem_cons_self)]
    refine ⟨List.cons_ne_nil _ _, implementsList?_eq_none fun blank behind heq hblank => ?_⟩
    have hwords : (c :: rest ++ word) ++ ' ' :: more = "implements".toList ++ blank :: behind := by
      rw [← heq]
      simp
    exact hend front (c :: rest) hcut hne (eq_of_word_append hback hwords hblank)
  have hline : '\n' ∉ cs := fun hmem => absurd (hcs _ hmem) (by decide)
  have hread := extendsFrom_append hpass hline []
  rwa [List.append_nil] at hread

/-- The implemented types end the list of extended ones. -/
theorem extendsFrom_implements {implemented : List String} (hne : Text.trimStart cs ≠ [])
    (h : implementsList? (Text.trimStart cs) = some implemented) (read : List Char) :
    extendsFrom read cs = some
      { extends? := typeList read.reverse, implements := implemented } := by
  unfold extendsFrom
  simp only [h, List.isEmpty_iff, hne, if_false]

/-! ## The clauses -/

/-- No clauses. -/
theorem clausesOf_nil : clausesOf [] = {} := by
  decide

theorem AreWritten.clausesOf_extends (h : AreWritten names) :
    clausesOf ("extends".toList ++ ' ' :: writtenList names) = { extends? := names } := by
  rw [clausesOf, behindKeyword_append, h.trimStart]
  simp only [h.extendsFrom, Option.getD_some]

theorem AreWritten.clausesOf_implements (h : AreWritten names) :
    clausesOf ("implements".toList ++ ' ' :: writtenList names) = { implements := names } := by
  have hnone : behindKeyword "extends" ("implements".toList ++ ' ' :: writtenList names) = none :=
    behindKeyword_cons (show "extends".toList = 'e' :: "xtends".toList from rfl) (by decide)
  rw [clausesOf, hnone]
  simp only [h.implementsList?, Option.getD_some]

/-- What follows the keyword of the extended types. -/
theorem clausesOf_extends_append (hcs : ∀ c ∈ cs, Text.isBlank c = false)
    (hne : cs ≠ []) (rest : List Char) :
    clausesOf ("extends".toList ++ ' ' :: (cs ++ rest))
      = (extendsFrom [] (cs ++ rest)).getD {} := by
  obtain ⟨c, cs, rfl⟩ := List.exists_cons_of_ne_nil hne
  rw [clausesOf, behindKeyword_append, List.cons_append,
    Text.trimStart_cons (hcs c List.mem_cons_self)]

/-- **A class and interfaces**, if the name of the class does not end with
the keyword. -/
theorem AreWritten.clausesOf_both (h : AreWritten names) (hname : Text.IsItem name.toList)
    (hend : ¬ "implements".toList <:+ name.toList) :
    clausesOf ("extends".toList ++
      ' ' :: (name.toList ++ ' ' :: ("implements".toList ++ ' ' :: writtenList names)))
      = { extends? := [name], implements := names } := by
  have hword := extendsFrom_word [] hname.blank (by simp)
    (fun front back hcut hne heq => hend ⟨front, by rw [hcut, ← heq, List.append_nil]⟩)
    ("implements".toList ++ ' ' :: writtenList names)
  rw [List.nil_append] at hword
  have hstart : Text.trimStart (' ' :: ("implements".toList ++ ' ' :: writtenList names))
      = "implements".toList ++ ' ' :: writtenList names :=
    Text.trimStart_blanks_append (show Text.Blank [' '] by decide) _
  have hsingle : Source.typeList (writtenList [name]) = [name] :=
    AreWritten.typeList ⟨by simp, by simpa using hname⟩
  rw [writtenList_singleton] at hsingle
  rw [clausesOf_extends_append hname.blank hname.ne_nil, hword,
    extendsFrom_implements (by rw [hstart]; simp) (by rw [hstart, h.implementsList?]),
    List.reverse_reverse, hsingle]
  rfl

/-- **A class whose name ends with the keyword is cut in front of it**, if
there are interfaces. -/
theorem AreWritten.clausesOf_cut (h : AreWritten names) {front : List Char}
    (hfront : ∀ c ∈ front, Text.isBlank c = false) :
    (clausesOf ("extends".toList ++ ' ' ::
        ((front ++ "implements".toList) ++
          ' ' :: ("implements".toList ++ ' ' :: writtenList names)))).extends?
      = Source.typeList front := by
  have hword := extendsFrom_word "implements".toList hfront (by decide)
    (fun _ back _ hne heq => hne (List.append_left_eq_self.1 heq))
    ("implements".toList ++ ' ' :: writtenList names)
  have hall : ∀ c ∈ front ++ "implements".toList, Text.isBlank c = false := by
    intro c hc
    rcases List.mem_append.1 hc with hc | hc
    · exact hfront c hc
    · exact (by decide : ∀ c ∈ "implements".toList, Text.isBlank c = false) c hc
  have hstart : Text.trimStart
      ("implements".toList ++ ' ' :: ("implements".toList ++ ' ' :: writtenList names))
      = "implements".toList ++ ' ' :: ("implements".toList ++ ' ' :: writtenList names) :=
    Text.trimStart_cons (by decide) _
  have hline : '\n' ∉ "implements".toList ++ ' ' :: writtenList names := by
    have hnames := h.line
    simp [hnames]
  rw [clausesOf_extends_append hall (by simp), List.append_assoc, hword,
    extendsFrom_implements (by rw [hstart]; simp) (by rw [hstart, implementsList?_append hline]),
    List.reverse_reverse]
  rfl

/-! ## Behind the name of a type -/

theorem clauses_of_start (h : ∀ more, Text.trimStart cs ≠ '<' :: more) :
    clauses cs = clausesOf (Text.trim cs) := by
  show clausesOf (Text.trim _) = _
  split
  next heq => exact absurd heq (h _)
  · rw [Text.trim_trimStart]

theorem getLast?_brackets (dimensions : Nat) : (brackets (dimensions + 1)).getLast? = some ']' := by
  induction dimensions with
  | zero => rfl
  | succ dimensions ih =>
    rw [brackets, List.getLast?_cons_cons]
    exact ih

/-- **The clauses stand behind the name of the type** and its parameter, if
it has one. -/
theorem clauses_append {tail front core behind : List Char} (htail : IsNameTail tail)
    (harray : tail.getLast? ≠ some ']') (hfront : Text.Blank front) (hbehind : Text.Blank behind)
    (hcore : Text.trim core = core) (hangle : ∀ c ∈ core.head?, Text.isBlank c = false ∧ c ≠ '<') :
    clauses (tail ++ (front ++ core ++ behind)) = clausesOf core := by
  have htrim : Text.trim (front ++ core ++ behind) = core := by
    rw [Text.trim_mid hfront hbehind, hcore]
  -- a type parameter is dropped with its brackets, and without one there is nothing behind the name
  cases htail with
  | array dimensions =>
    obtain rfl : dimensions = 0 := by
      cases dimensions with
      | zero => rfl
      | succ dimensions => exact absurd (getLast?_brackets dimensions) harray
    show clauses (front ++ core ++ behind) = clausesOf core
    rw [clauses_of_start, htrim]
    intro more
    rw [List.append_assoc, Text.trimStart_blanks_append hfront]
    cases core with
    | nil =>
      rw [List.nil_append, Text.trimStart_of_blank hbehind]
      exact (List.cons_ne_nil _ _).symm
    | cons c core =>
      obtain ⟨hc, hne⟩ := hangle c rfl
      rw [List.cons_append, Text.trimStart_cons hc]
      exact fun heq => hne (List.cons.inj heq).1
  | @argument name hname dimensions =>
    have hnot : ∀ d, TableMapper.isNameChar d = false → d ≠ '[' → d ≠ ']' →
        d ∉ name ++ brackets dimensions := by
      intro d hd hopen hclose hmem
      rcases List.mem_append.1 hmem with hmem | hmem
      · exact hname.not_mem hd hmem
      · rcases mem_brackets hmem with heq | heq
        · exact hopen heq
        · exact hclose heq
    have hcut : '<' :: (name ++ brackets dimensions ++ ['>']) ++ (front ++ core ++ behind)
        = '<' :: ((name ++ brackets dimensions) ++ '>' :: (front ++ core ++ behind)) := by
      simp
    have hdrop : Text.dropBalanced '<' '>' 0
        ('<' :: ((name ++ brackets dimensions) ++ '>' :: (front ++ core ++ behind)))
          = front ++ core ++ behind :=
      Text.dropBalanced_angle (hnot '<' (by decide) (by decide) (by decide))
        (hnot '>' (by decide) (by decide) (by decide)) _
    rw [hcut]
    unfold clauses
    rw [Text.trimStart_cons (by decide)]
    simp only [hdrop, htrim]
    rfl

/-- **Behind the brackets of an array type no clauses are read.** -/
theorem clauses_array (dimensions : Nat) (cs : List Char) :
    clauses (brackets (dimensions + 1) ++ cs) = {} := by
  show clauses ('[' :: (']' :: brackets dimensions ++ cs)) = {}
  obtain ⟨rest, hrest⟩ :=
    Text.exists_trim_cons (c := '[') (by decide) (']' :: brackets dimensions ++ cs)
  have hextends : behindKeyword "extends" ('[' :: rest) = none :=
    behindKeyword_cons (show "extends".toList = 'e' :: "xtends".toList from rfl) (by decide)
  have himplements : behindKeyword "implements" ('[' :: rest) = none :=
    behindKeyword_cons (show "implements".toList = 'i' :: "mplements".toList from rfl) (by decide)
  rw [clauses_of_start, hrest, clausesOf, hextends]
  · simp only [implementsList?, himplements]
    rfl
  · intro more
    rw [Text.trimStart_cons (by decide)]
    simp

end

end TableMapper.Source
