import TableMapper.Merge.Member
import TableMapper.Proofs.Merge.Braces
import TableMapper.Proofs.Text.Occurrences
import TableMapper.Proofs.Unit.Modifiers

/-!
# The code of a member

A field, a method or a constructor consists of modifiers and types, possibly
with annotations among them, its name, its parameters and what follows them
(`MemberCode`). It declares a key, which is its name and the number of its
parameters (`MemberCode.key`). A merge counts the items of a list of parameters,
by the commas outside of all brackets. So **the items are as many as the
parameters, if no annotation holds angle brackets**
(`IsSeries.length_listItems`): those of a type are closed in it, but an
annotation can hold a comparison.
-/

namespace TableMapper

open Source

/-! ## Stretches of modifiers and types -/

/-- How many angle brackets are open behind some code with so many open in
front of it. There is no such number if a comma stands outside of them, if one
is closed too often, or if there are annotations or brackets of another kind. -/
def openAngles (opened : Nat) : List Char → Option Nat
  | [] => some opened
  | c :: rest =>
    if c = '<' then openAngles (opened + 1) rest
    else if c = '>' then if opened = 0 then none else openAngles (opened - 1) rest
    else if c = ',' then if opened = 0 then none else openAngles opened rest
    else if c ∈ "@()\x7b\x7d=;".toList then none
    else openAngles opened rest

/-- **A stretch of modifiers and types**, with annotations anywhere among them,
from a place on at which so many angle brackets are open. Some characters can be
excluded from the annotations. -/
inductive IsStretch (excluded : List Char) : Nat → List Char → Prop
  | nil : IsStretch excluded 0 []
  | code {opened left : Nat} {cs rest : List Char} : openAngles opened cs = some left →
      IsStretch excluded left rest →
      IsStretch excluded opened (cs ++ rest)
  | mark {opened : Nat} {cs rest : List Char} : IsMark cs → (∀ c ∈ cs, c ∉ excluded) →
      IsStretch excluded opened rest → IsStretch excluded opened (cs ++ rest)

/-- **So many stretches**, with commas between them. -/
inductive IsSeries (excluded : List Char) : Nat → List Char → Prop
  | none {blanks : List Char} : Text.Blank blanks → IsSeries excluded 0 blanks
  | single {cs : List Char} : IsStretch excluded 0 cs → ¬ Text.Blank cs → IsSeries excluded 1 cs
  | cons {count : Nat} {cs rest : List Char} : IsStretch excluded 0 cs → ¬ Text.Blank cs →
      IsSeries excluded (count + 1) rest → IsSeries excluded (count + 2) (cs ++ ',' :: rest)

/-- **What ends a member**: a semicolon, in front of which an initial value can
stand, or a body. Only members with parameters have a body. -/
inductive IsEnding : Bool → List Char → Prop
  | semicolon {hasParameters : Bool} : IsEnding hasParameters [';']
  | value {init : List Char} : Nested (init.map shown) →
      (∀ front behind, init = front ++ ';' :: behind → depthAfter 0 (front.map shown) ≠ some 0) →
      IsEnding false ('=' :: (init ++ [';']))
  | body {inner : List Char} : Nested (inner.map shown) →
      IsEnding true ('\x7b' :: (inner ++ ['\x7d']))

/-! ## Members -/

/-- The parameters of a method or constructor. -/
structure ParameterCode where
  /-- What stands in front of the parenthesis. -/
  gap : List Char := []
  list : List Char
  count : Nat
deriving Repr, DecidableEq

/-- **The code of a member**, cut into its parts. -/
structure MemberCode where
  /-- Annotations in front of everything else. -/
  lead : List Char := []
  /-- Modifiers, type parameters and the type. -/
  front : List Char
  name : List Char
  parameters : Option ParameterCode := none
  /-- Brackets of an array, and what a method throws. -/
  behind : List Char := []
  /-- The initial value or the body, or a semicolon. -/
  ending : List Char
deriving Repr, DecidableEq

namespace MemberCode

/-- What stands between the name and the body. -/
def tail (d : MemberCode) : List Char :=
  d.parameters.elim [] (fun q => q.gap ++ '(' :: (q.list ++ [')'])) ++ d.behind

/-- What stands between the annotations in front and the body. -/
def head (d : MemberCode) : List Char :=
  d.front ++ (d.name ++ d.tail)

def code (d : MemberCode) : List Char :=
  d.lead ++ (d.head ++ d.ending)

/-- **The key that the member declares**: its name, and the number of its
parameters. -/
def key (d : MemberCode) : MemberKey :=
  ⟨String.ofList d.name, d.parameters.map (·.count)⟩

/-- A word of the code introduces an inner type. -/
def introducesType (cs : List Char) : Bool :=
  ["class", "interface", "enum", "record"].any fun word => cs.inits.any fun before =>
    word.toList.isPrefixOf (cs.drop before.length) &&
      (cs.drop (before.length + word.length)).head?.any Text.isBlank &&
      !before.getLast?.any fun c => isNamePart c || c == '.'

/-- **The name of the member is a word of its own**, and no word in front of it
introduces a type. -/
structure IsNamed (d : MemberCode) : Prop where
  name_ne_nil : d.name ≠ []
  name : ∀ c ∈ d.name, isNamePart c = true
  name_head : ∀ c ∈ d.name.head?, c.isDigit = false
  apart : ∀ c ∈ (d.lead ++ d.front).getLast?, isNamePart c = false
  unqualified : ∀ c ∈ (Text.trimEnd (d.lead ++ d.front)).getLast?, c ≠ '.'
  noType : introducesType (d.lead ++ d.front) = false

instance (d : MemberCode) : Decidable d.IsNamed :=
  decidable_of_iff (d.name ≠ [] ∧ (∀ c ∈ d.name, isNamePart c = true) ∧
      (∀ c ∈ d.name.head?, c.isDigit = false) ∧
      (∀ c ∈ (d.lead ++ d.front).getLast?, isNamePart c = false) ∧
      (∀ c ∈ (Text.trimEnd (d.lead ++ d.front)).getLast?, c ≠ '.') ∧
      introducesType (d.lead ++ d.front) = false)
    ⟨fun ⟨hne, hname, hhead, hapart, hunqualified, hno⟩ =>
      ⟨hne, hname, hhead, hapart, hunqualified, hno⟩,
        fun ⟨hne, hname, hhead, hapart, hunqualified, hno⟩ =>
          ⟨hne, hname, hhead, hapart, hunqualified, hno⟩⟩

/-- **A field, a method or a constructor.** -/
structure IsMember (d : MemberCode) : Prop extends d.IsNamed where
  front : IsStretch [] 0 (d.lead ++ d.front)
  parameters : ∀ q ∈ d.parameters, Text.Blank q.gap ∧ IsSeries [] q.count q.list
  brackets : d.parameters = none → ∀ c ∈ d.behind, Text.isBlank c = true ∨ c = '[' ∨ c = ']'
  behind : d.parameters ≠ none → ∃ count, IsSeries [] count d.behind
  ending : IsEnding d.parameters.isSome d.ending

end MemberCode

section

variable {cs excluded : List Char} {opened left count : Nat} {c : Char}

/-- The character with which the ending begins is the first that ends a head. -/
theorem IsEnding.exists_cons {hasParameters : Bool} (h : IsEnding hasParameters cs) :
    ∃ c rest, cs = c :: rest ∧ c ∈ "\x7b=;".toList := by
  cases h with
  | semicolon => exact ⟨';', [], rfl, by decide⟩
  | value => exact ⟨'=', _, rfl, by decide⟩
  | body => exact ⟨'\x7b', _, rfl, by decide⟩

theorem IsEnding.exists_last {hasParameters : Bool} (h : IsEnding hasParameters cs) :
    ∃ front c, cs = front ++ [c] ∧ Text.isBlank c = false := by
  cases h with
  | semicolon => exact ⟨[], ';', rfl, by decide⟩
  | @value init => exact ⟨'=' :: init, ';', rfl, by decide⟩
  | @body inner => exact ⟨'\x7b' :: inner, '\x7d', rfl, by decide⟩

/-! ## What a stretch holds -/

theorem not_mem_of_openAngles (h : openAngles opened cs = some left) :
    ∀ c ∈ cs, c ∉ "@()\x7b\x7d=;".toList := by
  induction cs generalizing opened with
  | nil => simp
  | cons c cs ih =>
    rw [openAngles] at h
    refine List.forall_mem_cons.2 ?_
    split at h
    next heq => exact ⟨heq ▸ by decide, ih h⟩
    split at h
    next heq =>
      split at h
      · exact absurd h (by simp)
      · exact ⟨heq ▸ by decide, ih h⟩
    split at h
    next heq =>
      split at h
      · exact absurd h (by simp)
      · exact ⟨heq ▸ by decide, ih h⟩
    split at h
    · exact absurd h (by simp)
    next hnot => exact ⟨hnot, ih h⟩

theorem isStretch_of_mark {mark rest : List Char} (hcut : cs = mark ++ rest) (hmark : IsMark mark)
    (hexcluded : ∀ c ∈ mark, c ∉ excluded) (hrest : IsStretch excluded opened rest) :
    IsStretch excluded opened cs := by
  rw [hcut]
  exact .mark hmark hexcluded hrest

/-- Code without annotations. -/
theorem isStretch_of_openAngles (h : openAngles opened cs = some 0) :
    IsStretch excluded opened cs := by
  have hstretch : IsStretch excluded opened (cs ++ []) := .code h .nil
  rwa [List.append_nil] at hstretch

/-! ## Counting the parameters -/

/-- One character of code without annotations leads as deep as the angle
brackets tell. -/
theorem exists_openAngles_cons (h : openAngles opened (c :: cs) = some left) :
    ∃ next, openAngles next cs = some left ∧ (opened : Int) + Text.nesting c = (next : Nat) ∧
      ¬ (c = ',' ∧ opened = 0) := by
  have hmem := not_mem_of_openAngles h c List.mem_cons_self
  rw [openAngles] at h
  split at h
  next heq => exact ⟨opened + 1, h, by rw [heq]; rfl, by simp [heq]⟩
  split at h
  next heq =>
    split at h
    · exact absurd h (by simp)
    next hne =>
      exact ⟨opened - 1, h, by rw [heq, show Text.nesting '>' = -1 by decide]; omega, by simp [heq]⟩
  split at h
  next heq =>
    split at h
    · exact absurd h (by simp)
    next hne => exact ⟨opened, h, by rw [heq]; exact Int.add_zero _, by simp [hne]⟩
  next hopening hclosing hcomma =>
    have hleft : c ≠ '(' := fun heq => hmem (heq ▸ by decide)
    have hright : c ≠ ')' := fun heq => hmem (heq ▸ by decide)
    exact ⟨opened, h, by simp [Text.nesting, hopening, hclosing, hleft, hright], by simp [hcomma]⟩

/-- Code without annotations belongs to one item. -/
theorem itemsFrom_openAngles (h : openAngles opened cs = some left) (item rest : List Char) :
    Text.itemsFrom opened item (cs ++ rest) = Text.itemsFrom left (cs.reverse ++ item) rest := by
  induction cs generalizing opened item with
  | nil =>
    obtain rfl := Option.some.inj h
    rfl
  | cons c cs ih =>
    obtain ⟨next, hnext, hdepth, hcomma⟩ := exists_openAngles_cons h
    rw [List.cons_append, Text.itemsFrom, if_neg (by simpa using hcomma), hdepth, ih hnext,
      List.reverse_cons, List.append_assoc]
    rfl

theorem depth_eq_count (hopening : '<' ∉ cs) (hclosing : '>' ∉ cs) :
    Text.depth cs = cs.count '(' - cs.count ')' := by
  induction cs with
  | nil => rfl
  | cons c cs ih =>
    obtain ⟨hleft, hopening⟩ := List.ne_and_not_mem_of_not_mem_cons hopening
    obtain ⟨hright, hclosing⟩ := List.ne_and_not_mem_of_not_mem_cons hclosing
    rw [Text.depth_cons, ih hopening hclosing, Text.nesting, List.count_cons, List.count_cons]
    by_cases hopen : c = '('
    · subst hopen
      simp only [beq_self_eq_true, Bool.or_true, if_true, show ('(' == ')') = false by decide,
        Bool.false_eq_true, if_false]
      omega
    · by_cases hclose : c = ')'
      · subst hclose
        simp only [beq_self_eq_true, Bool.or_true, if_true, show (')' == '(') = false by decide,
          show (')' == '<') = false by decide, Bool.or_self, Bool.false_eq_true, if_false]
        omega
      · simp [hopen, hclose, hleft.symm, hright.symm]

/-- **All commas of an annotation stand in its parentheses**, which are closed. -/
theorem Source.IsMark.depth (h : IsMark cs) (hopening : '<' ∉ cs) (hclosing : '>' ∉ cs) :
    Text.depth cs = 0 ∧ ∀ front behind, cs = front ++ ',' :: behind → 0 < Text.depth front := by
  obtain ⟨blanks, name, args, rfl, hblanks, hname, hargs⟩ := h
  have hplain : ∀ c, isNamePart c = false → Text.isBlank c = false → c ≠ '.' → c ≠ '@' →
      c ∉ '@' :: (blanks ++ name) := by
    intro c hpart hblank hdot hsign hmem
    rcases List.mem_cons.1 hmem with hmem | hmem
    · exact hsign hmem
    · rcases List.mem_append.1 hmem with hmem | hmem
      · exact hblanks.not_mem hblank hmem
      · exact hname.not_mem hpart hblank hdot hmem
  have hcomma : ',' ∉ '@' :: (blanks ++ name) :=
    hplain ',' (by decide) (by decide) (by decide) (by decide)
  have hopen : '(' ∉ '@' :: (blanks ++ name) :=
    hplain '(' (by decide) (by decide) (by decide) (by decide)
  have hclose : ')' ∉ '@' :: (blanks ++ name) :=
    hplain ')' (by decide) (by decide) (by decide) (by decide)
  rw [depth_eq_count hopening hclosing]
  obtain rfl | ⟨gap, inner, rfl, hgap, hinner, -⟩ := hargs
  · rw [List.append_nil] at hopening hclosing ⊢
    rw [List.count_eq_zero_of_not_mem hopen, List.count_eq_zero_of_not_mem hclose]
    refine ⟨rfl, fun front behind hcut => absurd (hcut ▸ ?_) hcomma⟩
    simp
  · have hcut : '@' :: (blanks ++ (name ++ (gap ++ '(' :: (inner ++ [')']))))
        = ('@' :: (blanks ++ name) ++ gap) ++ '(' :: (inner ++ [')']) := by simp
    rw [hcut] at hopening hclosing ⊢
    generalize hfront : '@' :: (blanks ++ name) ++ gap = stem at hopening hclosing ⊢
    have hstem : ∀ c, c ∉ '@' :: (blanks ++ name) → Text.isBlank c = false → c ∉ stem := by
      intro c hc hblank
      rw [← hfront, List.mem_append, not_or]
      exact ⟨hc, hgap.not_mem hblank⟩
    have hopen := List.count_eq_zero_of_not_mem (hstem '(' hopen (by decide))
    have hclose := List.count_eq_zero_of_not_mem (hstem ')' hclose (by decide))
    have hclosed := hinner.closed
    refine ⟨by simp [hopen, hclose, hclosed], fun front behind hcut => ?_⟩
    -- the comma stands behind the parenthesis that opens the arguments
    have hbegins : stem ++ ['('] <+: front ++ ',' :: behind :=
      ⟨inner ++ [')'], by rw [← hcut]; simp⟩
    have hcomma : ',' ∉ stem ++ ['('] := by simpa using hstem ',' hcomma (by decide)
    obtain ⟨part, rfl⟩ := Text.prefix_of_not_mem hcomma hbegins
    have hrest : inner ++ [')'] = part ++ ',' :: behind := by simpa using hcut
    have hlength := congrArg List.length hrest
    have hpart : part <+: inner := by
      refine List.prefix_of_prefix_length_le ⟨_, hrest.symm⟩ (List.prefix_append inner [')']) ?_
      simp only [List.length_append, List.length_cons, List.length_nil] at hlength
      omega
    have hcount := hinner.opened part hpart
    have hangles : '<' ∉ stem ++ ['('] ++ part ∧ '>' ∉ stem ++ ['('] ++ part := by
      rw [hcut] at hopening hclosing
      exact ⟨fun hmem => hopening (List.mem_append_left _ hmem),
        fun hmem => hclosing (List.mem_append_left _ hmem)⟩
    rw [depth_eq_count hangles.1 hangles.2]
    simp [hopen, hclose]
    omega

/-- **A stretch belongs to one item**, if its annotations hold no angle
brackets. -/
theorem IsStretch.itemsFrom (h : IsStretch excluded opened cs) (hopening : '<' ∈ excluded)
    (hclosing : '>' ∈ excluded)
    (item rest : List Char) : Text.itemsFrom opened item (cs ++ rest)
      = Text.itemsFrom 0 (cs.reverse ++ item) rest := by
  induction h generalizing item with
  | nil => rfl
  | code hangles _ ih =>
    rw [List.append_assoc, itemsFrom_openAngles hangles, ih, List.reverse_append, List.append_assoc]
  | @mark opened cs rest hmark hexcluded _ ih =>
    obtain ⟨hclosed, hcomma⟩ :=
      hmark.depth (fun hmem => hexcluded '<' hmem hopening) fun hmem => hexcluded '>' hmem hclosing
    have hnested : ∀ front behind, cs = front ++ ',' :: behind →
        (opened : Int) + Text.depth front ≠ 0 := by
      intro front behind hcut
      have hdepth := hcomma front behind hcut
      omega
    rw [List.append_assoc, Text.itemsFrom_nested hnested, hclosed, Int.add_zero, ih,
      List.reverse_append, List.append_assoc]

/-- **The parameters are counted.** -/
theorem IsSeries.length_listItems (h : IsSeries excluded count cs) (hopening : '<' ∈ excluded)
    (hclosing : '>' ∈ excluded) : (Text.listItems cs).length = count := by
  rw [Text.listItems]
  induction h with
  | @none blanks hblanks =>
    have hread := Text.itemsFrom_blanks hblanks [] []
    rw [List.append_nil, List.append_nil] at hread
    rw [hread, Text.itemsFrom, if_pos (by simpa [Text.Blank] using hblanks)]
    rfl
  | @single cs hstretch hne =>
    have hall : cs.all Text.isBlank = false := by simpa [Text.Blank] using hne
    have hread := hstretch.itemsFrom hopening hclosing [] []
    rw [List.append_nil, List.append_nil] at hread
    rw [show Text.itemsFrom 0 [] cs = _ from hread, Text.itemsFrom]
    simp [hall]
  | @cons count cs rest hstretch _ _ ih =>
    have hread := hstretch.itemsFrom hopening hclosing [] (',' :: rest)
    rw [List.append_nil] at hread
    rw [show Text.itemsFrom 0 [] (cs ++ ',' :: rest) = _ from hread, Text.itemsFrom,
      if_pos (by decide), List.length_cons, ih]

end

end TableMapper
