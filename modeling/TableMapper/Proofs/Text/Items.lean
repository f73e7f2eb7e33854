import Mathlib.Algebra.Ring.Int.Defs
import Mathlib.Data.List.Infix
import TableMapper.Proofs.Text.Trimming
import TableMapper.Text.Balanced

/-!
# Lists of items and bracketed parts

A list of items written with a comma and a blank between two of them is
read back as the same items (`listItems_intercalate`), as long as no item
holds a comma or a blank and the brackets in each are balanced.
-/

namespace TableMapper.Text

section

variable {cs inner rest : List Char} {items : List (List Char)}

/-- What can stand in a list as one item. -/
structure IsItem (cs : List Char) : Prop where
  ne_nil : cs ≠ []
  comma : ',' ∉ cs
  blank : ∀ c ∈ cs, isBlank c = false
  balanced : (cs.map nesting).sum = 0

/-- A text without commas belongs to one item. -/
theorem itemsFrom_append (h : ',' ∉ cs) (depth : Int) (item rest : List Char) :
    itemsFrom depth item (cs ++ rest)
      = itemsFrom (depth + (cs.map nesting).sum) (cs.reverse ++ item) rest := by
  induction cs generalizing depth item with
  | nil => simp
  | cons c cs ih =>
    have hc : (c == ',') = false := by
      simpa using fun heq : c = ',' => h (heq ▸ List.mem_cons_self)
    rw [List.cons_append, itemsFrom, hc, Bool.false_and, if_neg (by simp),
      ih fun hmem => h (List.mem_cons_of_mem c hmem), List.map_cons, List.sum_cons,
      List.reverse_cons, List.append_assoc, Int.add_assoc]
    rfl

/-- Items behind a place at which blanks have been read. -/
theorem itemsFrom_intercalate (h : ∀ item ∈ items, IsItem item) {pending : List Char}
    (hpending : Blank pending) :
    itemsFrom 0 pending ([',', ' '].intercalate items) = items := by
  induction items generalizing pending with
  | nil =>
    rw [List.intercalate_nil, itemsFrom, if_pos (List.all_eq_true.2 hpending)]
  | cons item items ih =>
    have hitem := h item List.mem_cons_self
    have hread : trim (item.reverse ++ pending).reverse = item := by
      rw [List.reverse_append, List.reverse_reverse,
        trim_blanks_append fun c hc => hpending c (List.mem_reverse.1 hc),
        trim_of_forall hitem.blank]
    cases items with
    | nil =>
      rw [List.intercalate_singleton, ← List.append_nil item, itemsFrom_append hitem.comma,
        List.append_nil, itemsFrom, if_neg, hread]
      obtain ⟨c, cs, rfl⟩ := List.exists_cons_of_ne_nil hitem.ne_nil
      simp [hitem.blank c List.mem_cons_self]
    | cons second items =>
      rw [List.intercalate_cons_cons, List.append_assoc, itemsFrom_append hitem.comma,
        hitem.balanced]
      show itemsFrom 0 (item.reverse ++ pending) (',' :: ' ' :: _) = _
      rw [itemsFrom, if_pos (by decide), hread, itemsFrom, if_neg (by decide)]
      exact congrArg (item :: ·)
        (ih (fun other hother => h other (List.mem_cons_of_mem item hother))
          (by decide : Blank [' ']))

/-- **Items that are written as a list are read back.** -/
theorem listItems_intercalate (h : ∀ item ∈ items, IsItem item) :
    listItems ([',', ' '].intercalate items) = items :=
  itemsFrom_intercalate h (by decide)

theorem listItems_singleton (h : IsItem cs) : listItems cs = [cs] := by
  have hlist : listItems ([',', ' '].intercalate [cs]) = [cs] :=
    listItems_intercalate (by simpa using h)
  rwa [List.intercalate_singleton] at hlist

/-! ## Bracketed parts -/

theorem dropBalanced_append {opening closing : Char} (hopening : opening ∉ inner)
    (hclosing : closing ∉ inner) (depth : Nat) (rest : List Char) :
    dropBalanced opening closing depth (inner ++ rest)
      = dropBalanced opening closing depth rest := by
  induction inner with
  | nil => rfl
  | cons c inner ih =>
    obtain ⟨hc, hopening⟩ := List.ne_and_not_mem_of_not_mem_cons hopening
    obtain ⟨hc', hclosing⟩ := List.ne_and_not_mem_of_not_mem_cons hclosing
    rw [List.cons_append, dropBalanced, if_neg (by simpa using hc.symm),
      if_neg (by simpa using hc'.symm), ih hopening hclosing]

/-- What follows angle brackets with nothing of the kind inside. -/
theorem dropBalanced_angle (hopening : '<' ∉ inner) (hclosing : '>' ∉ inner) (rest : List Char) :
    dropBalanced '<' '>' 0 ('<' :: (inner ++ '>' :: rest)) = rest := by
  rw [dropBalanced, if_pos (by decide), dropBalanced_append hopening hclosing, dropBalanced,
    if_neg (by decide), if_pos (by decide), if_pos (by decide)]

/-! ## The text around the first separator -/

theorem splitOnce_append {c : Char} (h : c ∉ cs) (rest : List Char) :
    splitOnce [c] (cs ++ c :: rest) = some (cs, rest) := by
  induction cs with
  | nil =>
    rw [List.nil_append, splitOnce, if_pos (by simp [List.isPrefixOf])]
    rfl
  | cons d cs ih =>
    obtain ⟨hc, hcs⟩ := List.ne_and_not_mem_of_not_mem_cons h
    rw [List.cons_append, splitOnce, if_neg (by simpa [List.isPrefixOf] using hc), ih hcs]
    rfl

/-! ## The text behind the last separator -/

theorem splitLast_of_not_mem {c : Char} (h : c ∉ cs) : splitLast c cs = (none, cs) := by
  have hpass : ∀ d ∈ cs.reverse, (d != c) = true := by
    intro d hd
    simpa using fun heq : d = c => h (heq ▸ List.mem_reverse.1 hd)
  rw [splitLast, List.takeWhile_eq_self_iff.2 hpass, List.reverse_reverse,
    List.dropWhile_eq_nil_iff.2 hpass]

theorem splitLast_append {c : Char} (h : c ∉ cs) (front : List Char) :
    splitLast c (front ++ c :: cs) = (some front, cs) := by
  have hpass : ∀ d ∈ cs.reverse, (d != c) = true := by
    intro d hd
    simpa using fun heq : d = c => h (heq ▸ List.mem_reverse.1 hd)
  have hreverse : (front ++ c :: cs).reverse = cs.reverse ++ c :: front.reverse := by simp
  rw [splitLast, hreverse, List.takeWhile_append_of_pos hpass, List.dropWhile_append_of_pos hpass,
    List.takeWhile_cons_of_neg (by simp), List.dropWhile_cons_of_neg (by simp)]
  simp

/-- Where a character last stands. -/
theorem exists_last_of_mem {c : Char} (h : c ∈ cs) :
    ∃ front last, cs = front ++ c :: last ∧ c ∉ last := by
  obtain ⟨behind, front, hcut, hbehind⟩ := List.eq_append_cons_of_mem (List.mem_reverse.2 h)
  refine ⟨front.reverse, behind.reverse, ?_, by simpa using hbehind⟩
  rw [← List.reverse_reverse cs, hcut]
  simp

end

/-!
## Lists of entries with brackets

What stands in a list that a person has written is seldom as plain as what is
written by ourselves: an entry can hold commas in its brackets, and blanks and
line ends around the commas. **Such a list is read back as its entries**
(`listItems_of_isList`), since a comma that separates two entries is one in no
brackets. A bracketed part ends where as many brackets are closed as are
opened in it (`dropBalanced_balanced`).
-/

/-! ### Entries -/

/-- How many brackets are opened in a text and not closed. -/
def depth (cs : List Char) : Int :=
  (cs.map nesting).sum

/-- **One entry of a list**: brackets are closed in it, and all its commas
stand in brackets. -/
structure IsEntry (cs : List Char) : Prop where
  ne_nil : cs ≠ []
  trim : Text.trim cs = cs
  closed : depth cs = 0
  comma : ∀ front behind, cs = front ++ ',' :: behind → depth front ≠ 0

/-- **A list with its entries**, which commas separate with any blanks around
them. -/
inductive IsList : List Char → List (List Char) → Prop
  | single {entry : List Char} : IsEntry entry → IsList entry [entry]
  | cons {entry before behind rest : List Char} {entries : List (List Char)} :
      IsEntry entry → Blank before →
      Blank behind → IsList rest entries →
      IsList (entry ++ (before ++ ',' :: (behind ++ rest))) (entry :: entries)

section

variable {cs ds entry blanks : List Char} {entries : List (List Char)}

theorem depth_cons (c : Char) (cs : List Char) : depth (c :: cs) = nesting c + depth cs := rfl

theorem depth_eq_zero (h : ∀ c ∈ cs, nesting c = 0) : depth cs = 0 := by
  induction cs with
  | nil => rfl
  | cons c cs ih =>
    rw [depth_cons, h c List.mem_cons_self, ih fun d hd => h d (List.mem_cons_of_mem c hd)]
    rfl

/-- Blanks are no brackets. -/
theorem depth_blank (h : Blank blanks) : depth blanks = 0 := by
  refine depth_eq_zero fun c hc => ?_
  have hne : ∀ d, isBlank d = false → c ≠ d := fun d hd heq => h.not_mem hd (heq ▸ hc)
  simp [nesting, hne '<' (by decide), hne '(' (by decide), hne '>' (by decide), hne ')' (by decide)]

/-- A text that neither begins nor ends with a blank. -/
theorem head?_of_trim (h : trim cs = cs) : ∀ c ∈ cs.head?, isBlank c = false := by
  intro c hc
  obtain ⟨rest, rfl⟩ := List.head?_eq_some_iff.1 (Option.mem_def.1 hc)
  by_contra hblank
  have hlength := congrArg List.length h
  have hstart : trim ([c] ++ rest) = trim rest :=
    trim_blanks_append (by simpa [Blank] using hblank) rest
  obtain ⟨front, behind, -, -, hcut⟩ := exists_trim rest
  have hle := congrArg List.length hcut
  rw [show c :: rest = [c] ++ rest from rfl, hstart] at hlength
  simp only [List.length_append, List.length_singleton] at hlength hle
  omega

theorem getLast?_of_trim (h : trim cs = cs) : ∀ c ∈ cs.getLast?, isBlank c = false := by
  intro c hc
  obtain ⟨front, rfl⟩ := List.getLast?_eq_some_iff.1 (Option.mem_def.1 hc)
  by_contra hblank
  have hlength := congrArg List.length h
  rw [trim_append_blanks (show Blank [c] by simpa [Blank] using hblank)] at hlength
  obtain ⟨before, behind, -, -, hcut⟩ := exists_trim front
  have hle := congrArg List.length hcut
  simp only [List.length_append, List.length_singleton] at hlength hle
  omega

/-- An entry, decided by going through the commas. -/
theorem isEntry_of_inits (hne : cs ≠ []) (htrim : trim cs = cs) (hclosed : depth cs = 0)
    (hcomma : ∀ front ∈ cs.inits, front ++ [','] <+: cs → depth front ≠ 0) : IsEntry cs where
  ne_nil := hne
  trim := htrim
  closed := hclosed
  comma := fun front behind hcut =>
    hcomma front ((List.mem_inits _ _).2 ⟨_, hcut.symm⟩) ⟨behind, by rw [hcut]; simp⟩

/-! ### Reading a list -/

/-- What holds no comma outside of brackets belongs to one entry. -/
theorem itemsFrom_nested {opened : Int}
    (h : ∀ front behind, cs = front ++ ',' :: behind → opened + depth front ≠ 0)
    (item rest : List Char) :
    itemsFrom opened item (cs ++ rest)
      = itemsFrom (opened + depth cs) (cs.reverse ++ item) rest := by
  induction cs generalizing opened item with
  | nil => simp [depth]
  | cons c cs ih =>
    have hc : ¬ (c == ',' && opened == 0) = true := by
      intro hcomma
      obtain ⟨rfl, hzero⟩ : c = ',' ∧ opened = 0 := by simpa using hcomma
      exact h [] cs rfl (by simp [hzero, depth])
    have hcs : ∀ front behind, cs = front ++ ',' :: behind →
        opened + nesting c + depth front ≠ 0 := by
      intro front behind hcut
      rw [Int.add_assoc, ← depth_cons]
      exact h (c :: front) behind (by rw [hcut]; rfl)
    rw [List.cons_append, itemsFrom, if_neg hc, ih hcs, depth_cons, List.reverse_cons,
      List.append_assoc, Int.add_assoc]
    rfl

theorem IsEntry.itemsFrom_append (h : IsEntry entry) (item rest : List Char) :
    itemsFrom 0 item (entry ++ rest) = itemsFrom 0 (entry.reverse ++ item) rest := by
  rw [itemsFrom_nested
    (fun front behind hcut => by simpa using h.comma front behind hcut), h.closed]
  rfl

/-- Blanks belong to the entry that they stand beside. -/
theorem itemsFrom_blanks (h : Blank blanks) (item rest : List Char) :
    itemsFrom 0 item (blanks ++ rest) = itemsFrom 0 (blanks.reverse ++ item) rest := by
  rw [itemsFrom_nested, depth_blank h]
  · rfl
  · intro front behind hcut
    exact absurd (hcut ▸ by simp) (h.not_mem (show isBlank ',' = false by decide))

theorem IsEntry.read (h : IsEntry entry) {pending before : List Char} (hpending : Blank pending)
    (hbefore : Blank before) :
    Text.trim (before.reverse ++ (entry.reverse ++ pending)).reverse = entry := by
  have hcut : (before.reverse ++ (entry.reverse ++ pending)).reverse
      = pending.reverse ++ entry ++ before := by simp
  rw [hcut, trim_mid (fun c hc => hpending c (List.mem_reverse.1 hc)) hbefore, h.trim]

/-- Entries behind a place at which blanks have been read. -/
theorem itemsFrom_of_isList (h : IsList cs entries) {pending : List Char}
    (hpending : Blank pending) :
    itemsFrom 0 pending cs = entries := by
  induction h generalizing pending with
  | @single entry hentry =>
    have hread := hentry.read hpending (show Blank [] by decide)
    rw [List.reverse_nil, List.nil_append] at hread
    rw [← List.append_nil entry, hentry.itemsFrom_append, List.append_nil, itemsFrom, hread, if_neg]
    obtain ⟨c, cs, hcs⟩ := List.exists_cons_of_ne_nil hentry.ne_nil
    have hc : isBlank c = false := head?_of_trim hentry.trim c (by rw [hcs]; rfl)
    simp [hcs, hc]
  | @cons entry before behind rest entries hentry hbefore hbehind _ ih =>
    have hnext := @ih (behind.reverse ++ []) fun c hc => hbehind c (by simpa using hc)
    rw [hentry.itemsFrom_append, itemsFrom_blanks hbefore, itemsFrom, if_pos (by decide),
      hentry.read hpending hbefore, itemsFrom_blanks hbehind, hnext]

/-- **A list is read as its entries.** -/
theorem listItems_of_isList (h : IsList cs entries) : listItems cs = entries :=
  itemsFrom_of_isList h (by decide)

theorem IsList.ne_nil (h : IsList cs entries) : cs ≠ [] := by
  cases h with
  | single hentry => exact hentry.ne_nil
  | cons hentry => simp

/-- A list neither begins nor ends with a blank. -/
theorem IsList.trim (h : IsList cs entries) : Text.trim cs = cs := by
  refine trim_eq_self ?_ ?_
  · cases h with
    | single hentry => exact head?_of_trim hentry.trim
    | @cons entry before behind rest entries hentry =>
      intro c hc
      rw [List.head?_append_of_ne_nil entry hentry.ne_nil] at hc
      exact head?_of_trim hentry.trim c hc
  · induction h with
    | single hentry => exact getLast?_of_trim hentry.trim
    | @cons entry before behind rest entries _ _ _ hrest ih =>
      have hcut : entry ++ (before ++ ',' :: (behind ++ rest))
          = (entry ++ (before ++ ',' :: behind)) ++ rest := by simp
      rw [hcut, List.getLast?_append_of_ne_nil _ hrest.ne_nil]
      exact ih

end

/-! ### Bracketed parts -/

/-- **As many brackets are closed as are opened**, and none before it is
opened. -/
structure Balanced (opening closing : Char) (cs : List Char) : Prop where
  opened : ∀ front, front <+: cs → front.count closing ≤ front.count opening
  closed : cs.count closing = cs.count opening

section

variable {opening closing : Char} {inner : List Char}

theorem balanced_of_inits (h : ∀ front ∈ inner.inits, front.count closing ≤ front.count opening)
    (hclosed : inner.count closing = inner.count opening) : Balanced opening closing inner :=
  ⟨fun front hfront => h front ((List.mem_inits _ _).2 hfront), hclosed⟩

/-- A part in which no bracket is closed that has been opened in front of
it. -/
theorem dropBalanced_counted (hne : opening ≠ closing) {opened left : Nat}
    (h : ∀ front, front <+: inner → front.count closing ≤ front.count opening + opened)
    (hleft : inner.count closing + left = inner.count opening + opened) (rest : List Char) :
    dropBalanced opening closing (opened + 1) (inner ++ rest)
      = dropBalanced opening closing (left + 1) rest := by
  induction inner generalizing opened with
  | nil =>
    obtain rfl : left = opened := by simpa using hleft
    rfl
  | cons c inner ih =>
    have hfront : ∀ front, front <+: inner →
        (c :: front).count closing ≤ (c :: front).count opening + opened :=
      fun front hfront => h (c :: front) (List.cons_prefix_cons.2 ⟨rfl, hfront⟩)
    rw [List.cons_append, dropBalanced]
    by_cases hopening : c = opening
    · subst hopening
      rw [if_pos (beq_self_eq_true c)]
      rw [List.count_cons_self, List.count_cons_of_ne hne] at hleft
      refine ih (fun front hprefix => ?_) (by omega)
      have hcount := hfront front hprefix
      rw [List.count_cons_self, List.count_cons_of_ne hne] at hcount
      omega
    · rw [if_neg (by simpa using hopening)]
      by_cases hclosing : c = closing
      · subst hclosing
        rw [List.count_cons_self, List.count_cons_of_ne hopening] at hleft
        have hopened : 1 ≤ opened := by
          have hcount := hfront [] (List.nil_prefix)
          rw [List.count_cons_self, List.count_cons_of_ne hopening, List.count_nil,
            List.count_nil] at hcount
          omega
        obtain ⟨opened, rfl⟩ := Nat.exists_eq_add_of_le' hopened
        rw [if_pos (beq_self_eq_true c), if_neg (by omega)]
        refine ih (fun front hprefix => ?_) (by omega)
        have hcount := hfront front hprefix
        rw [List.count_cons_self, List.count_cons_of_ne hopening] at hcount
        omega
      · rw [if_neg (by simpa using hclosing)]
        rw [List.count_cons_of_ne hclosing, List.count_cons_of_ne hopening] at hleft
        refine ih (fun front hprefix => ?_) hleft
        have hcount := hfront front hprefix
        rwa [List.count_cons_of_ne hclosing, List.count_cons_of_ne hopening] at hcount

/-- **A bracketed part ends with the bracket that closes the first one.** -/
theorem dropBalanced_balanced (hne : opening ≠ closing) (h : Balanced opening closing inner)
    (rest : List Char) :
    dropBalanced opening closing 0 (opening :: (inner ++ closing :: rest)) = rest := by
  rw [dropBalanced, if_pos (beq_self_eq_true opening),
    @dropBalanced_counted opening closing inner hne 0 0 h.opened (by rw [h.closed]), dropBalanced,
    if_neg (by simpa using hne.symm), if_pos (beq_self_eq_true closing), if_pos (Nat.le_refl 1)]

end

end TableMapper.Text
