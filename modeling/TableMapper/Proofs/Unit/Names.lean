import Mathlib.Tactic.Tauto
import TableMapper.Proofs.Text.Items
import TableMapper.Proofs.Text.Trimming
import TableMapper.Proofs.Unit.Marking
import TableMapper.Settings.Problem
import TableMapper.Unit.Declared

/-!
# Names as they are written

Types are named by dotted identifiers of ASCII characters, possibly with the
brackets of an array behind them, or are lists of such types
(`JavaType.IsPlain`). **Their short names have one of two shapes**
(`IsWritten`): an identifier with brackets behind it, or with one argument
of that kind. No character of a short name separates anything in the
header of a declaration.
-/

namespace TableMapper

/-! ## Characters -/

/-- A letter or digit of ASCII, `_` or `$`. -/
def isNameChar (c : Char) : Bool :=
  c.isAlphanum || c == '_' || c == '$'

section

variable {c d : Char}

theorem ne_of_isNameChar (h : isNameChar c = true) (hd : isNameChar d = false) : c ≠ d := by
  rintro rfl
  rw [h] at hd
  exact Bool.noConfusion hd

/-- The code points of such characters. -/
theorem toNat_of_isNameChar (h : isNameChar c = true) :
    c.toNat = 36 ∨ 48 ≤ c.toNat ∧ c.toNat ≤ 57 ∨ 65 ≤ c.toNat ∧ c.toNat ≤ 90 ∨ c.toNat = 95 ∨
      97 ≤ c.toNat ∧ c.toNat ≤ 122 := by
  have halpha : c.isAlpha =
      (decide ('A'.val ≤ c.val ∧ c.val ≤ 'Z'.val) || ('a'.val ≤ c.val && c.val ≤ 'z'.val)) := rfl
  simp only [isNameChar, Char.isAlphanum, halpha, Char.isDigit,
    Bool.or_eq_true, Bool.and_eq_true, decide_eq_true_eq, beq_iff_eq, ge_iff_le,
    UInt32.le_iff_toNat_le] at h
  rcases h with (((h | h) | h) | rfl) | rfl
  · exact .inr (.inr (.inl h))
  · exact .inr (.inr (.inr (.inr h)))
  · exact .inr (.inl h)
  · exact .inr (.inr (.inr (.inl rfl)))
  · exact .inl rfl

theorem isBlank_of_isNameChar (h : isNameChar c = true) : Text.isBlank c = false := by
  have htable : ∀ n < 123, n = 36 ∨ 48 ≤ n → Text.Span.anyHas Text.blanks n = false := by decide
  have hn := toNat_of_isNameChar h
  exact htable c.toNat (by omega) (by omega)

/-- **All of them but the dollar sign are word characters.** -/
theorem isWordChar_of_isNameChar (h : isNameChar c = true) (hc : c ≠ '$') :
    Text.isWordChar c = true := by
  have htable : ∀ n < 123, 48 ≤ n ∧ n ≤ 57 ∨ 65 ≤ n ∧ n ≤ 90 ∨ n = 95 ∨ 97 ≤ n →
      (Text.Span.anyHas Text.alphabetic n || Text.Span.anyHas Text.wordContinuations n) = true := by
    decide +kernel
  have hn := toNat_of_isNameChar h
  have hdollar : c.toNat ≠ 36 := by
    intro heq
    exact hc (Char.toNat_inj.1 heq)
  exact htable c.toNat (by omega) (by omega)

theorem isNamePart_of_isNameChar (h : isNameChar c = true) : Source.isNamePart c = true := by
  rw [Source.isNamePart, Bool.or_eq_true, beq_iff_eq]
  by_cases hc : c = '$'
  · exact .inr hc
  · exact .inl (isWordChar_of_isNameChar h hc)

theorem isNameChar_of_isNameStart (h : Source.isNameStart c = true) : isNameChar c = true := by
  rw [Source.isNameStart, Bool.or_eq_true, Bool.or_eq_true] at h
  rw [isNameChar, Char.isAlphanum, Bool.or_eq_true, Bool.or_eq_true, Bool.or_eq_true]
  tauto

end

/-! ## Identifiers and dotted names -/

/-- An identifier. -/
def IsIdentifier (cs : List Char) : Prop :=
  ∃ c rest, cs = c :: rest ∧ Source.isNameStart c = true ∧ ∀ d ∈ rest, isNameChar d = true

instance (cs : List Char) : Decidable (IsIdentifier cs) :=
  match cs with
  | [] => .isFalse fun ⟨_, _, h, _⟩ => nomatch h
  | c :: rest =>
    decidable_of_iff (Source.isNameStart c = true ∧ ∀ d ∈ rest, isNameChar d = true)
      ⟨fun h => ⟨c, rest, rfl, h⟩, fun ⟨_, _, heq, h⟩ => by cases heq; exact h⟩

/-- **A name that is read whole where a type is declared**: word characters of
any script and dollar signs behind a letter of ASCII, `_` or `$`. -/
def IsDeclarable (cs : List Char) : Prop :=
  ∃ c rest, cs = c :: rest ∧ Source.isNameStart c = true ∧ ∀ d ∈ rest, Source.isNamePart d = true

instance (cs : List Char) : Decidable (IsDeclarable cs) :=
  match cs with
  | [] => .isFalse fun ⟨_, _, h, _⟩ => nomatch h
  | c :: rest =>
    decidable_of_iff (Source.isNameStart c = true ∧ ∀ d ∈ rest, Source.isNamePart d = true)
      ⟨fun h => ⟨c, rest, rfl, h⟩, fun ⟨_, _, heq, h⟩ => by cases heq; exact h⟩

/-- **A dotted name**: identifiers with a dot between two of them. -/
inductive IsDotted : List Char → Prop
  | identifier {name : List Char} (h : IsIdentifier name) : IsDotted name
  | dot {path name : List Char} (hpath : IsDotted path) (hname : IsIdentifier name) :
    IsDotted (path ++ '.' :: name)

/-- The brackets of an array type. -/
def brackets : Nat → List Char
  | 0 => []
  | dimensions + 1 => '[' :: ']' :: brackets dimensions

/-- **The name of a type**: a dotted name, possibly of an array type. -/
def IsTypeName (cs : List Char) : Prop :=
  ∃ path dimensions, IsDotted path ∧ cs = path ++ brackets dimensions

section

variable {cs name path : List Char}

theorem IsIdentifier.ne_nil (h : IsIdentifier name) : name ≠ [] := by
  obtain ⟨c, rest, rfl, -⟩ := h
  exact List.cons_ne_nil c rest

theorem IsIdentifier.isNameChar (h : IsIdentifier name) : ∀ c ∈ name, isNameChar c = true := by
  obtain ⟨c, rest, rfl, hc, hrest⟩ := h
  intro d hd
  rcases List.mem_cons.1 hd with rfl | hd
  · exact isNameChar_of_isNameStart hc
  · exact hrest d hd

theorem IsIdentifier.not_mem (h : IsIdentifier name) {d : Char}
    (hd : TableMapper.isNameChar d = false) :
    d ∉ name :=
  fun hmem => ne_of_isNameChar (h.isNameChar d hmem) hd rfl

theorem IsIdentifier.isDeclarable (h : IsIdentifier name) : IsDeclarable name := by
  obtain ⟨c, rest, rfl, hc, hrest⟩ := h
  exact ⟨c, rest, rfl, hc, fun d hd => isNamePart_of_isNameChar (hrest d hd)⟩

theorem IsDeclarable.isNamePart (h : IsDeclarable name) :
    ∀ c ∈ name, Source.isNamePart c = true := by
  obtain ⟨c, rest, rfl, hc, hrest⟩ := h
  exact List.forall_mem_cons.2 ⟨isNamePart_of_isNameChar (isNameChar_of_isNameStart hc), hrest⟩

theorem IsDeclarable.append (h : IsDeclarable name) (hcs : ∀ c ∈ cs, Source.isNamePart c = true) :
    IsDeclarable (name ++ cs) := by
  obtain ⟨c, rest, rfl, hc, hrest⟩ := h
  exact ⟨c, rest ++ cs, rfl, hc, List.forall_mem_append.2 ⟨hrest, hcs⟩⟩

theorem IsDotted.forall (h : IsDotted path) : ∀ c ∈ path, isNameChar c = true ∨ c = '.' := by
  induction h with
  | identifier hname => exact fun c hc => .inl (hname.isNameChar c hc)
  | dot hpath hname ih =>
    intro c hc
    rcases List.mem_append.1 hc with hc | hc
    · exact ih c hc
    · rcases List.mem_cons.1 hc with rfl | hc
      · exact .inr rfl
      · exact .inl (hname.isNameChar c hc)

theorem IsDotted.not_mem (h : IsDotted path) {d : Char}
    (hd : isNameChar d = false) (hdot : d ≠ '.') :
    d ∉ path := by
  intro hmem
  rcases h.forall d hmem with hc | hc
  · exact ne_of_isNameChar hc hd rfl
  · exact hdot hc

theorem IsDotted.ne_nil (h : IsDotted path) : path ≠ [] := by
  cases h with
  | identifier hname => exact hname.ne_nil
  | dot hpath hname => simp

/-- A dotted name begins with an identifier. -/
theorem IsDotted.head (h : IsDotted path) :
    ∃ c rest, path = c :: rest ∧ Source.isNameStart c = true := by
  induction h with
  | identifier hname =>
    obtain ⟨c, rest, rfl, hc, -⟩ := hname
    exact ⟨c, rest, rfl, hc⟩
  | @dot path name hpath hname ih =>
    obtain ⟨c, rest, rfl, hc⟩ := ih
    exact ⟨c, rest ++ '.' :: name, rfl, hc⟩

/-- A dotted name ends with an identifier. -/
theorem IsDotted.getLast (h : IsDotted path) :
    ∃ front c, path = front ++ [c] ∧ isNameChar c = true := by
  have hname : ∀ {name : List Char}, IsIdentifier name →
      ∃ front c, name = front ++ [c] ∧ isNameChar c = true := by
    intro name hname
    refine ⟨name.dropLast, name.getLast hname.ne_nil,
      (List.dropLast_concat_getLast hname.ne_nil).symm, ?_⟩
    exact hname.isNameChar _ (List.getLast_mem hname.ne_nil)
  cases h with
  | identifier h => exact hname h
  | @dot path name hpath h =>
    obtain ⟨front, c, rfl, hc⟩ := hname h
    exact ⟨path ++ '.' :: front, c, by simp, hc⟩

theorem mem_brackets {d : Char} {dimensions : Nat} (h : d ∈ brackets dimensions) :
    d = '[' ∨ d = ']' := by
  induction dimensions with
  | zero => exact absurd h List.not_mem_nil
  | succ dimensions ih =>
    rcases List.mem_cons.1 h with rfl | h
    · exact .inl rfl
    · rcases List.mem_cons.1 h with rfl | h
      · exact .inr rfl
      · exact ih h

/-! ## Short names -/

/-- What can follow the identifier of a short name: the brackets of an array
type, or an argument in angle brackets. -/
inductive IsNameTail : List Char → Prop
  | array (dimensions : Nat) : IsNameTail (brackets dimensions)
  | argument {name : List Char} (h : IsIdentifier name) (dimensions : Nat) :
    IsNameTail ('<' :: (name ++ brackets dimensions ++ ['>']))

/-- **The short name of a type as it is written.** -/
def IsWritten (cs : List Char) : Prop :=
  ∃ name tail, cs = name ++ tail ∧ IsIdentifier name ∧ IsNameTail tail

theorem IsNameTail.forall {tail : List Char} (h : IsNameTail tail) :
    ∀ c ∈ tail, isNameChar c = true ∨ c = '[' ∨ c = ']' ∨ c = '<' ∨ c = '>' := by
  cases h with
  | array dimensions =>
    intro c hc
    rcases mem_brackets hc with rfl | rfl <;> simp
  | argument hname dimensions =>
    intro c hc
    simp only [List.mem_cons, List.mem_append, List.not_mem_nil, or_false] at hc
    rcases hc with rfl | (hc | hc) | rfl
    · simp
    · exact .inl (hname.isNameChar c hc)
    · rcases mem_brackets hc with rfl | rfl <;> simp
    · simp

theorem IsWritten.forall (h : IsWritten cs) :
    ∀ c ∈ cs, isNameChar c = true ∨ c = '[' ∨ c = ']' ∨ c = '<' ∨ c = '>' := by
  obtain ⟨name, tail, rfl, hname, htail⟩ := h
  intro c hc
  rcases List.mem_append.1 hc with hc | hc
  · exact .inl (hname.isNameChar c hc)
  · exact htail.forall c hc

/-- Which characters are in no short name. -/
theorem IsWritten.not_mem (h : IsWritten cs) {d : Char} (hd : isNameChar d = false)
    (hne : d ≠ '[' ∧ d ≠ ']' ∧ d ≠ '<' ∧ d ≠ '>') : d ∉ cs := by
  intro hmem
  rcases h.forall d hmem with hc | hc
  · exact ne_of_isNameChar hc hd rfl
  · tauto

theorem IsWritten.isBlank (h : IsWritten cs) : ∀ c ∈ cs, Text.isBlank c = false := by
  intro c hc
  rcases h.forall c hc with hc | rfl | rfl | rfl | rfl
  · exact isBlank_of_isNameChar hc
  all_goals decide

theorem IsWritten.ne_nil (h : IsWritten cs) : cs ≠ [] := by
  obtain ⟨name, tail, rfl, hname, -⟩ := h
  exact fun hnil => hname.ne_nil (List.append_eq_nil_iff.1 hnil).1

theorem nesting_of_isNameChar {c : Char} (h : isNameChar c = true) : Text.nesting c = 0 := by
  have hne := fun {d : Char} (hd : isNameChar d = false) => ne_of_isNameChar h hd
  simp [Text.nesting, hne (d := '<') (by decide), hne (d := '(') (by decide),
    hne (d := '>') (by decide), hne (d := ')') (by decide)]

theorem sum_nesting_eq_zero (h : ∀ c ∈ cs, Text.nesting c = 0) : (cs.map Text.nesting).sum = 0 := by
  induction cs with
  | nil => rfl
  | cons c cs ih =>
    rw [List.map_cons, List.sum_cons, h c List.mem_cons_self,
      ih fun d hd => h d (List.mem_cons_of_mem c hd), Int.add_zero]

theorem nesting_identifier (h : IsIdentifier name) (dimensions : Nat) :
    ((name ++ brackets dimensions).map Text.nesting).sum = 0 := by
  refine sum_nesting_eq_zero fun c hc => ?_
  rcases List.mem_append.1 hc with hc | hc
  · exact nesting_of_isNameChar (h.isNameChar c hc)
  · rcases mem_brackets hc with rfl | rfl <;> decide

/-- **A short name can stand in a list.** -/
theorem IsWritten.isItem (h : IsWritten cs) : Text.IsItem cs where
  ne_nil := h.ne_nil
  comma := h.not_mem (by decide) (by decide)
  blank := h.isBlank
  balanced := by
    obtain ⟨name, tail, rfl, hname, htail⟩ := h
    cases htail with
    | array dimensions => exact nesting_identifier hname dimensions
    | @argument item hitem dimensions =>
      have hfront := nesting_identifier hname 0
      have hinner := nesting_identifier hitem dimensions
      simp only [brackets, List.append_nil] at hfront
      rw [List.map_append, List.sum_append, hfront, List.map_cons, List.sum_cons, List.map_append,
        List.sum_append, hinner]
      decide

end

/-! ## Types -/

namespace JavaType

/-- **A type as units name them**: a dotted name, possibly of an array type,
or a list of such a type. -/
def IsPlain (t : JavaType) : Prop :=
  ∃ name, IsTypeName name.toList ∧ (t = named name ∨ t = listOf (named name))

section

variable {name : String} {t : JavaType}

/-- A name cut at its last dot. -/
theorem splitName_of_isTypeName (h : IsTypeName name.toList) :
    ∃ last dimensions, IsIdentifier last ∧ (splitName name).2.toList = last ++ brackets dimensions ∧
      ∀ package ∈ (splitName name).1, IsDotted package.toList := by
  obtain ⟨path, dimensions, hpath, hname⟩ := h
  have hbrackets : '.' ∉ brackets dimensions := by
    intro hmem
    rcases mem_brackets hmem with hdot | hdot <;> exact absurd hdot (by decide)
  have hlast : ∀ {last : List Char}, IsIdentifier last → '.' ∉ last ++ brackets dimensions :=
    fun hlast hmem => (List.mem_append.1 hmem).elim (hlast.not_mem (by decide)) hbrackets
  rw [splitName, hname]
  cases hpath with
  | identifier h =>
    rw [Text.splitLast_of_not_mem (hlast h)]
    exact ⟨path, dimensions, h, String.toList_ofList, by simp⟩
  | @dot front last hfront h =>
    rw [List.append_assoc, List.cons_append, Text.splitLast_append (hlast h)]
    refine ⟨last, dimensions, h, String.toList_ofList, fun package hpackage => ?_⟩
    have hpackage : String.ofList front = package := Option.some.inj (Option.mem_def.1 hpackage)
    rw [← hpackage, String.toList_ofList]
    exact hfront

/-- **The short name of a type is a written one.** -/
theorem isWritten_shortName (h : t.IsPlain) : IsWritten t.shortName.toList := by
  obtain ⟨name, hname, rfl | rfl⟩ := h
  · obtain ⟨last, dimensions, hlast, hshort, -⟩ := splitName_of_isTypeName hname
    exact ⟨last, brackets dimensions, hshort, hlast, .array dimensions⟩
  · obtain ⟨last, dimensions, hlast, hshort, -⟩ := splitName_of_isTypeName hname
    refine ⟨"List".toList, _, ?_, by decide,
      .argument hlast dimensions⟩
    show ((splitName "java.util.List").2 ++ "<" ++ ", ".intercalate [(splitName name).2] ++
        ">").toList = _
    rw [String.toList_append, String.toList_append, String.toList_append, String.toList_intercalate,
      show (splitName "java.util.List").2 = "List" by decide]
    simp [hshort]

/-- The package of a type is a dotted name. -/
theorem isDotted_packageName? (h : t.IsPlain) :
    ∀ package ∈ t.packageName?, IsDotted package.toList := by
  obtain ⟨name, hname, rfl | rfl⟩ := h
  · obtain ⟨-, -, -, -, hpackage⟩ := splitName_of_isTypeName hname
    exact hpackage
  · intro package hpackage
    obtain rfl : package = "java.util" := by
      have hsome : (splitName "java.util.List").1 = some "java.util" := by decide
      exact Option.some.inj (hpackage.symm.trans hsome)
    have hjava : IsIdentifier "java".toList := by decide
    have hutil : IsIdentifier "util".toList := by decide
    exact (IsDotted.identifier hjava).dot hutil

/-- A short name that stands for a type keeps its form. -/
theorem shortName_named (h : IsWritten name.toList) : (named name).shortName = name := by
  have hdot : '.' ∉ name.toList := h.not_mem (by decide) (by decide)
  show (splitName name).2 = name
  rw [splitName, Text.splitLast_of_not_mem hdot]
  exact String.ofList_toList

end

end JavaType

/-!
## Package names

A package name, as the check of the settings knows it, is a dotted name. The
check can be run, so this also settles what the fixed names in generated code
are.
-/

/-- An identifier in front of a dotted name. -/
theorem IsDotted.cons {name path : List Char} (h : IsDotted path) (hname : IsIdentifier name) :
    IsDotted (name ++ '.' :: path) := by
  induction h with
  | identifier hlast => exact .dot (.identifier hname) hlast
  | @dot path last _ hlast ih =>
    rw [← List.cons_append, ← List.append_assoc]
    exact .dot ih hlast

/-- Identifiers between dots are a dotted name. -/
theorem isDotted_of_pieces (cs : List Char)
    (h : ∀ piece ∈ Text.pieces (· == '.') cs, IsIdentifier piece) :
    IsDotted cs := by
  -- what stands in front of the first dot is a piece, the recursion is on the rest
  by_cases hdot : '.' ∈ cs
  · obtain ⟨front, rest, hcs, hfront⟩ := List.eq_append_cons_of_mem hdot
    rw [hcs, Text.pieces_append_cons (by rfl), Text.pieces_of_forall, List.singleton_append,
      List.forall_mem_cons] at h
    · rw [hcs]
      exact (isDotted_of_pieces rest h.2).cons h.1
    · exact fun c hc => by simpa using fun heq : c = '.' => hfront (heq ▸ hc)
  · rw [Text.pieces_of_forall fun c hc => by simpa using fun heq : c = '.' => hdot (heq ▸ hc)] at h
    exact .identifier (h cs List.mem_cons_self)
termination_by cs.length
decreasing_by simp [hcs]; omega

/-- **A package name is a dotted name.** -/
theorem isDotted_of_isPackageName {name : String} (h : isPackageName name = true) :
    IsDotted name.toList := by
  refine isDotted_of_pieces _ fun piece hpiece => ?_
  have hpart := List.all_eq_true.1 h piece hpiece
  cases piece with
  | nil => exact nomatch hpart
  | cons c rest =>
    obtain ⟨hc, hrest⟩ := Bool.and_eq_true_iff.1 hpart
    refine ⟨c, rest, rfl, by rw [Source.isNameStart, hc, Bool.true_or], fun d hd => ?_⟩
    rw [isNameChar, List.all_eq_true.1 hrest d hd, Bool.true_or]

theorem IsDotted.isTypeName {path : List Char} (h : IsDotted path) : IsTypeName path :=
  ⟨path, 0, h, (List.append_nil path).symm⟩

theorem JavaType.isPlain_named {name : String} (h : IsTypeName name.toList) :
    (named name).IsPlain :=
  ⟨name, h, .inl rfl⟩

theorem JavaType.isPlain_of_isPackageName {name : String} (h : isPackageName name = true) :
    (named name).IsPlain :=
  isPlain_named (isDotted_of_isPackageName h).isTypeName

end TableMapper
