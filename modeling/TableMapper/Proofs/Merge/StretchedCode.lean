import TableMapper.Proofs.Merge.DeclaredKey

/-!
# Code with longer blanks

A hidden character counts as one blank where it is one character, and as
several where it is the bytes of one. So there are two texts of the same code,
and in one of them some blanks are longer (`Stretches`). Everything that is
read off the code of a member takes blanks together, or stops at them, and
does not tell one from several: **the key of a member is the same in both
texts** (`MemberKey.ofCode_stretches`).
-/

namespace TableMapper

namespace Text

/-- **A text in which some blanks have become longer.** -/
inductive Stretches : List Char → List Char → Prop
  | nil : Stretches [] []
  | cons (c : Char) {cs ds : List Char} : Stretches cs ds → Stretches (c :: cs) (c :: ds)
  | blanks (n : Nat) {cs ds : List Char} : Stretches cs ds →
      Stretches (' ' :: cs) (List.replicate (n + 1) ' ' ++ ds)

variable {cs ds word more : List Char} {p : Char → Bool} {c : Char}

theorem itemsFrom_blank (depth : Int) (item rest : List Char) :
    itemsFrom depth item (' ' :: rest) = itemsFrom depth (' ' :: item) rest := by
  rw [itemsFrom, if_neg (by simp)]
  exact congrArg (itemsFrom · _ rest) (Int.add_zero depth)

/-- A word that begins with no blank is not found among blanks. -/
theorem splitOnce_blanks {d : Char} (hd : d ≠ ' ') (n : Nat) (cs : List Char) :
    splitOnce (d :: word) (List.replicate n ' ' ++ cs)
      = (splitOnce (d :: word) cs).map fun found => (List.replicate n ' ' ++ found.1, found.2) := by
  induction n with
  | zero => simp
  | succ n ih =>
    rw [List.replicate_succ, List.cons_append, splitOnce, List.isPrefixOf_cons_cons,
      beq_eq_false_iff_ne.2 hd, Bool.false_and, if_neg Bool.false_ne_true, ih, Option.map_map]
    rfl

namespace Stretches

theorem append (h : Stretches cs ds) {cs' ds' : List Char} (h' : Stretches cs' ds') :
    Stretches (cs ++ cs') (ds ++ ds') := by
  induction h with
  | nil => exact h'
  | cons c _ ih => exact .cons c ih
  | blanks n _ ih =>
    rw [List.append_assoc]
    exact .blanks n ih

theorem reverse (h : Stretches cs ds) : Stretches cs.reverse ds.reverse := by
  induction h with
  | nil => exact .nil
  | cons c _ ih =>
    rw [List.reverse_cons, List.reverse_cons]
    exact ih.append (.cons c .nil)
  | blanks n _ ih =>
    rw [List.reverse_cons, List.reverse_append, List.reverse_replicate]
    have hblank : Stretches [' '] (List.replicate (n + 1) ' ' ++ []) := .blanks n .nil
    rw [List.append_nil] at hblank
    exact ih.append hblank

theorem takeWhile (h : Stretches cs ds) (p : Char → Bool) :
    Stretches (cs.takeWhile p) (ds.takeWhile p) := by
  induction h with
  | nil => exact .nil
  | cons c _ ih =>
    rw [List.takeWhile_cons, List.takeWhile_cons]
    split
    · exact .cons c ih
    · exact .nil
  | blanks n _ ih =>
    cases hp : p ' ' with
    | true =>
      rw [List.takeWhile_cons_of_pos hp,
        List.takeWhile_append_of_pos fun c hc => by rw [List.eq_of_mem_replicate hc, hp]]
      exact .blanks n ih
    | false =>
      rw [List.takeWhile_cons_of_neg (by simp [hp]), List.replicate_succ, List.cons_append,
        List.takeWhile_cons_of_neg (by simp [hp])]
      exact .nil

theorem dropWhile (h : Stretches cs ds) (p : Char → Bool) :
    Stretches (cs.dropWhile p) (ds.dropWhile p) := by
  induction h with
  | nil => exact .nil
  | cons c h ih =>
    rw [List.dropWhile_cons, List.dropWhile_cons]
    split
    · exact ih
    · exact .cons c h
  | blanks n h ih =>
    cases hp : p ' ' with
    | true =>
      rw [List.dropWhile_cons_of_pos hp,
        List.dropWhile_append_of_pos fun c hc => by rw [List.eq_of_mem_replicate hc, hp]]
      exact ih
    | false =>
      rw [List.dropWhile_cons_of_neg (by simp [hp]), List.replicate_succ, List.cons_append,
        List.dropWhile_cons_of_neg (by simp [hp])]
      exact .blanks n h

theorem trimStart (h : Stretches cs ds) : Stretches (trimStart cs) (Text.trimStart ds) :=
  h.dropWhile isBlank

theorem trim (h : Stretches cs ds) : Stretches (trim cs) (Text.trim ds) :=
  (h.trimStart.reverse.dropWhile isBlank).reverse

/-- Without blanks nothing is longer. -/
theorem eq_of_not_mem (h : Stretches cs ds) (hblank : ' ' ∉ cs) : ds = cs := by
  induction h with
  | nil => rfl
  | cons c _ ih => rw [ih fun hmem => hblank (List.mem_cons_of_mem c hmem)]
  | blanks n => exact absurd List.mem_cons_self hblank

theorem mem_iff (h : Stretches cs ds) : c ∈ ds ↔ c ∈ cs := by
  induction h with
  | nil => rfl
  | cons d _ ih => rw [List.mem_cons, List.mem_cons, ih]
  | blanks n _ ih => simp [ih]

theorem eq_iff (h : Stretches cs ds) (hblank : ' ' ∉ word) : ds = word ↔ cs = word := by
  constructor
  · rintro rfl
    exact (h.eq_of_not_mem fun hmem => hblank (h.mem_iff.2 hmem)).symm
  · rintro rfl
    exact h.eq_of_not_mem hblank

theorem takeWhile_eq (h : Stretches cs ds) (hp : p ' ' = false) :
    ds.takeWhile p = cs.takeWhile p := by
  refine (h.takeWhile p).eq_of_not_mem fun hmem => ?_
  have hpass := List.mem_takeWhile_imp hmem
  rw [hp] at hpass
  cases hpass

theorem isPrefixOf (h : Stretches cs ds) (hword : ' ' ∉ word) :
    word.isPrefixOf ds = word.isPrefixOf cs := by
  induction word generalizing cs ds with
  | nil => rfl
  | cons d word ih =>
    have hd : ' ' ≠ d := fun heq => hword (heq ▸ List.mem_cons_self)
    cases h with
    | nil => rfl
    | cons c h =>
      rw [List.isPrefixOf_cons_cons, List.isPrefixOf_cons_cons,
        ih h fun hmem => hword (List.mem_cons_of_mem d hmem)]
    | blanks n h =>
      rw [List.replicate_succ, List.cons_append, List.isPrefixOf_cons_cons,
        List.isPrefixOf_cons_cons, beq_eq_false_iff_ne.2 hd.symm, Bool.false_and, Bool.false_and]

theorem dropBalanced (h : Stretches cs ds) {opening closing : Char} (hopening : opening ≠ ' ')
    (hclosing : closing ≠ ' ') (depth : Nat) :
    Stretches (dropBalanced opening closing depth cs)
      (Text.dropBalanced opening closing depth ds) := by
  induction h generalizing depth with
  | nil => exact .nil
  | cons c h ih =>
    rw [Text.dropBalanced, Text.dropBalanced]
    split
    · exact ih _
    · split
      · split
        · exact h
        · exact ih _
      · exact ih _
  | blanks n h ih =>
    have hblanks : ∀ {c}, c ≠ ' ' → c ∉ List.replicate (n + 1) ' ' :=
      fun hc hmem => hc (List.eq_of_mem_replicate hmem)
    rw [dropBalanced_append (hblanks hopening) (hblanks hclosing),
      ← List.singleton_append,
      dropBalanced_append (by simpa using hopening) (by simpa using hclosing)]
    exact ih depth

/-- **A list has as many items**, however long its blanks are. -/
theorem length_itemsFrom (h : Stretches cs ds) (depth : Int) {item read : List Char}
    (hread : read.all isBlank = item.all isBlank) :
    (itemsFrom depth read ds).length = (itemsFrom depth item cs).length := by
  induction h generalizing depth item read with
  | nil =>
    rw [itemsFrom, itemsFrom, hread]
    split <;> rfl
  | cons c _ ih =>
    rw [itemsFrom, itemsFrom]
    split
    · rw [List.length_cons, List.length_cons, ih depth rfl]
    · exact ih _ (by rw [List.all_cons, List.all_cons, hread])
  | @blanks n cs ds _ ih =>
    have hblank : ∀ read : List Char, (' ' :: read).all isBlank = read.all isBlank := fun _ => rfl
    induction n generalizing read with
    | zero =>
      rw [List.replicate_one, List.singleton_append, itemsFrom_blank, itemsFrom_blank]
      exact ih depth (by rw [hblank, hblank, hread])
    | succ n ihn =>
      rw [List.replicate_succ, List.cons_append, itemsFrom_blank]
      exact ihn (by rw [hblank, hread])

theorem length_listItems (h : Stretches cs ds) : (listItems ds).length = (listItems cs).length :=
  h.length_itemsFrom 0 rfl

/-- What follows the first character of a kind that is no blank. -/
theorem dropWhile_ne (h : Stretches cs ds) (hc : c ≠ ' ') :
    cs.dropWhile (· != c) = [] ∧ ds.dropWhile (· != c) = [] ∨
      ∃ rest rest', cs.dropWhile (· != c) = c :: rest ∧ ds.dropWhile (· != c) = c :: rest' ∧
      Stretches rest rest' := by
  have hfirst := List.head?_dropWhile_not (· != c) cs
  have hdrop := h.dropWhile (· != c)
  generalize cs.dropWhile (· != c) = cs' at hfirst hdrop
  generalize ds.dropWhile (· != c) = ds' at hdrop
  cases hdrop with
  | nil => exact .inl ⟨rfl, rfl⟩
  | cons d h =>
    obtain rfl : d = c := by simpa using hfirst
    exact .inr ⟨_, _, rfl, rfl, h⟩
  | blanks n h => exact absurd (by simpa using hfirst) hc.symm

/-- A word and a blank stand where they stood; behind them there may be more
blanks. -/
theorem behind_word (h : Stretches cs ds) (hword : ' ' ∉ word) :
    (word ++ [' ']).isPrefixOf ds = (word ++ [' ']).isPrefixOf cs ∧
    ((word ++ [' ']).isPrefixOf cs = true →
      Stretches (Text.trimStart (cs.drop (word ++ [' ']).length))
        (Text.trimStart (ds.drop (word ++ [' ']).length))) := by
  induction word generalizing cs ds with
  | nil =>
    cases h with
    | nil => exact ⟨rfl, nofun⟩
    | cons c h => exact ⟨rfl, fun _ => h.trimStart⟩
    | blanks n h =>
      have hblank : Blank (List.replicate n ' ') :=
        fun c hc => by rw [List.eq_of_mem_replicate hc]; decide
      refine ⟨rfl, fun _ => ?_⟩
      show Stretches _ (Text.trimStart (List.replicate n ' ' ++ _))
      rw [trimStart_blanks_append hblank]
      exact h.trimStart
  | cons d word ih =>
    have hd : d ≠ ' ' := fun heq => hword (heq ▸ List.mem_cons_self)
    cases h with
    | nil => exact ⟨rfl, nofun⟩
    | cons c h =>
      obtain ⟨hbegins, hbehind⟩ := ih h fun hmem => hword (List.mem_cons_of_mem d hmem)
      rw [List.cons_append, List.isPrefixOf_cons_cons, List.isPrefixOf_cons_cons, hbegins]
      exact ⟨rfl, fun hboth => hbehind (Bool.and_eq_true_iff.1 hboth).2⟩
    | blanks n h =>
      rw [List.replicate_succ, List.cons_append, List.cons_append, List.isPrefixOf_cons_cons,
        List.isPrefixOf_cons_cons, beq_eq_false_iff_ne.2 hd, Bool.false_and, Bool.false_and]
      exact ⟨rfl, nofun⟩

/-- **What follows a word and a blank** is found in both texts. -/
theorem map_splitOnce (h : Stretches cs ds) {d : Char} (hword : ' ' ∉ d :: word)
    {α : Type} {f : List Char → α}
    (hf : ∀ {behind behind' : List Char}, Stretches behind behind' → f behind' = f behind) :
    (splitOnce (d :: word ++ [' ']) ds).map (fun found => f (Text.trimStart found.2))
      = (splitOnce (d :: word ++ [' ']) cs).map fun found => f (Text.trimStart found.2) := by
  have hd : d ≠ ' ' := fun heq => hword (heq ▸ List.mem_cons_self)
  induction h with
  | nil => rfl
  | cons c h ih =>
    obtain ⟨hbegins, hbehind⟩ := (Stretches.cons c h).behind_word hword
    rw [splitOnce, splitOnce, hbegins]
    split
    next hprefix => exact congrArg some (hf (hbehind hprefix))
    · rw [Option.map_map, Option.map_map]
      exact ih
  | @blanks n cs ds h ih =>
    rw [List.cons_append, splitOnce_blanks hd, ← List.singleton_append (x := ' ') (l := cs),
      ← List.replicate_one, splitOnce_blanks hd, Option.map_map, Option.map_map]
    exact ih

end Stretches

end Text

namespace MemberKey

open Text

variable {cs ds : List Char}

theorem behindMark_stretches (h : Stretches cs ds) : behindMark cs = none ∧ behindMark ds = none ∨
    ∃ rest rest', behindMark cs = some rest ∧ behindMark ds = some rest' ∧
    Stretches rest rest' := by
  cases h with
  | nil => exact .inl ⟨rfl, rfl⟩
  | blanks n h => exact .inl ⟨rfl, rfl⟩
  | @cons c cs ds h =>
    by_cases hc : c = '@'
    · subst hc
      simp only [behindMark, h.isPrefixOf (by decide : ' ' ∉ "interface".toList)]
      split
      · exact .inl ⟨rfl, rfl⟩
      · have hbehind := (h.dropWhile isMarkChar).trimStart
        generalize trimStart (cs.dropWhile isMarkChar) = behind at hbehind
        generalize trimStart (ds.dropWhile isMarkChar) = behind' at hbehind
        refine .inr ?_
        cases hbehind with
        | nil => exact ⟨_, _, rfl, rfl, .nil⟩
        | blanks n h => exact ⟨_, _, rfl, rfl, .blanks n h⟩
        | cons c h =>
          by_cases hopen : c = '('
          · subst hopen
            exact ⟨_, _, rfl, rfl, (Stretches.cons '(' h).dropBalanced (by decide) (by decide) 0⟩
          · simp [hopen, Stretches.cons c h]
    · simp [behindMark, hc]

theorem skipMarks_stretches (h : Stretches cs ds) : Stretches (skipMarks cs) (skipMarks ds) := by
  induction hlength : cs.length using Nat.strong_induction_on generalizing cs ds with
  | h n ih =>
    rcases behindMark_stretches h.trimStart with ⟨hcs, hds⟩ | ⟨rest, rest', hcs, hds, hrest⟩
    · rw [skipMarks_of_none hcs, skipMarks_of_none hds]
      exact h.trimStart
    · rw [skipMarks_of_some hcs, skipMarks_of_some hds]
      refine ih rest.length ?_ hrest rfl
      have hshorter := behindMark_length hcs
      have htrim := (List.dropWhile_suffix Text.isBlank (l := cs)).length_le
      rw [Text.trimStart] at hshorter
      omega

theorem lastIdentifier?_stretches (h : Stretches cs ds) :
    lastIdentifier? ds = lastIdentifier? cs := by
  have hname := (h.reverse.dropWhile (!isIdentifierChar ·)).takeWhile_eq
    (p := isIdentifierChar) (by decide)
  simp only [lastIdentifier?, hname]

theorem innerType?_stretches (h : Stretches cs ds) : innerType? ds = innerType? cs := by
  have hname : ∀ {behind behind' : List Char}, Stretches behind behind' →
      String.ofList (behind'.takeWhile isIdentifierChar)
        = String.ofList (behind.takeWhile isIdentifierChar) :=
    fun h => congrArg String.ofList (h.takeWhile_eq (by decide))
  have hwords : ∀ word ∈ typeWords, ∃ d letters, word.toList = d :: letters ++ [' '] ∧
      ' ' ∉ d :: letters := by
    intro word hword
    simp only [typeWords, List.mem_cons, List.not_mem_nil, or_false] at hword
    rcases hword with rfl | rfl | rfl | rfl
    · exact ⟨'c', "lass".toList, by decide, by decide⟩
    · exact ⟨'i', "nterface".toList, by decide, by decide⟩
    · exact ⟨'e', "num".toList, by decide, by decide⟩
    · exact ⟨'r', "ecord".toList, by decide, by decide⟩
  rw [innerType?, innerType?]
  generalize typeWords = words at hwords
  induction words with
  | nil => rfl
  | cons word words ih =>
    obtain ⟨d, letters, hword, hblank⟩ := hwords word List.mem_cons_self
    have hsame := h.map_splitOnce hblank hname
    rw [List.findSome?_cons, List.findSome?_cons,
      ih fun word hmem => hwords word (List.mem_cons_of_mem _ hmem), hword]
    rw [hsame]

theorem parameterList_stretches (h : Stretches cs ds) (closedBefore : Bool) :
    Stretches (parameterList closedBefore cs) (parameterList closedBefore ds) := by
  unfold parameterList splitLast
  rcases h.reverse.dropWhile_ne
    (by decide : ')' ≠ ' ') with ⟨hcs, hds⟩ | ⟨rest, rest', hcs, hds, hrest⟩
  · simp only [hcs, hds]
    split
    · exact .nil
    · exact h
  · simp only [hcs, hds]
    exact hrest.reverse

/-- **The key of a member does not depend on how long its blanks are.** -/
theorem ofCode_stretches (h : Stretches cs ds) : ofCode ds = ofCode cs := by
  unfold ofCode
  have hhead := (skipMarks_stretches h).takeWhile fun c => c != '\x7b' && c != '=' && c != ';'
  generalize (skipMarks cs).takeWhile _ = head at hhead
  generalize (skipMarks ds).takeWhile _ = head' at hhead
  simp only [innerType?_stretches hhead]
  cases innerType? head with
  | some name => rfl
  | none =>
    rcases hhead.dropWhile_ne
      (by decide : '(' ≠ ' ') with ⟨hcs, hds⟩ | ⟨rest, rest', hcs, hds, hrest⟩
    · simp only [hcs, hds, lastIdentifier?_stretches hhead]
    · have hfront := hhead.takeWhile (· != '(')
      have hclosed : (head'.takeWhile (· != '(')).contains ')'
          = (head.takeWhile (· != '(')).contains ')' := by
        rw [Bool.eq_iff_iff, List.contains_iff_mem, List.contains_iff_mem]
        exact hfront.mem_iff
      simp only [hcs, hds, lastIdentifier?_stretches hfront, hclosed,
        (parameterList_stretches hrest _).length_listItems]

end MemberKey

namespace Source

/-- **The bytes of hidden characters are longer blanks.** -/
theorem stretches_blanked (source : Source) : Text.Stretches source.codes source.blanked := by
  induction source with
  | nil => exact .nil
  | cons c source ih =>
    obtain ⟨d, hidden⟩ := c
    cases hidden with
    | false => exact .cons d ih
    | true =>
      obtain ⟨n, hn⟩ := Nat.exists_eq_succ_of_ne_zero d.utf8Size_pos.ne'
      have hblanked : blanked (⟨d, true⟩ :: source)
          = List.replicate (n + 1) ' ' ++ blanked source :=
        congrArg (List.replicate · ' ' ++ _) hn
      rw [hblanked]
      exact .blanks n ih

end Source

end TableMapper
