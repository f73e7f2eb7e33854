import TableMapper.Ddl.Schema
import TableMapper.Proofs.Text.Items
import TableMapper.Proofs.Text.Trimming

/-!
# What a row says of a declared type

The type of a column reaches its row as a text. The code of the row is that
of the first word of this text, and size and scale are the first two numbers
between parentheses, where a number that does not fit, or is no number at
all, is 0 like an absent one.

Here the text is read back: **the code is that of the keyword** and
**declared digits are the size and the scale** (`ofDeclared_integer`,
`ofDeclared_numeric`, `sizeAndScale_numeric`). The options of a column leave
all of this alone (`ColumnDefinition.row_part`).
-/

namespace TableMapper

/-! ## The first word -/

namespace JdbcType

/-- A character at which the first word of a type ends. -/
def endsWord (c : Char) : Bool :=
  c == '(' || Text.isBlank c

theorem declaredWord_append {word rest : String} (hword : ∀ c ∈ word.toList, endsWord c = false)
    (hrest : ∀ c ∈ rest.toList.head?, endsWord c = true) : declaredWord (word ++ rest)
      = Text.asciiUpper word := by
  have hbehind : (rest.toList.takeWhile fun c => !endsWord c) = [] := by
    cases hcs : rest.toList with
    | nil => rfl
    | cons c cs =>
      refine List.takeWhile_cons_of_neg ?_
      rw [hrest c (by rw [hcs]; exact rfl)]
      decide
  show Text.asciiUpper (String.ofList ((word ++ rest).toList.takeWhile fun c => !endsWord c)) = _
  rw [String.toList_append, List.takeWhile_append_of_pos fun c hc => by rw [hword c hc]; rfl,
    hbehind, List.append_nil, String.ofList_toList]

end JdbcType

namespace Ddl

/-! ## Codes -/

/-- The type that an integer type stands for. -/
def IntegerKind.jdbcType : IntegerKind → JdbcType
  | .tinyint => .tinyint
  | .smallint => .smallint
  | .mediumint | .int | .integer => .integer
  | .bigint => .bigint
  | .int2 | .int4 | .int8 => .other

/-- A type with fixed places, of which the values are exact. -/
def NumericKind.IsExact : NumericKind → Prop
  | .decimal | .dec | .numeric => True
  | .float | .double => False

/-- Behind the keyword of a number the first word is over. -/
theorem endsWord_arguments (digits : Digits) (unsigned : Bool) :
    ∀ c ∈ (digits.spelling ++ ColumnType.unsignedMark unsigned).toList.head?,
    JdbcType.endsWord c = true := by
  have hopened : ∀ rest, ∀ c ∈ ("(" ++ rest).toList.head?, JdbcType.endsWord c = true := by
    intro rest c hc
    rw [String.toList_append] at hc
    obtain rfl := Option.some.inj hc
    rfl
  cases digits with
  | unspecified => cases unsigned <;> decide +kernel
  | precision p =>
    show ∀ c ∈ ("(" ++ toString p ++ ")" ++ ColumnType.unsignedMark unsigned).toList.head?, _
    simp only [String.append_assoc]
    exact hopened _
  | scaled p scale =>
    show ∀ c ∈ ("(" ++ toString p ++ "," ++ toString scale ++ ")" ++
        ColumnType.unsignedMark unsigned).toList.head?, _
    simp only [String.append_assoc]
    exact hopened _

theorem ofDeclared_integer (kind : IntegerKind) (width : Option Nat) (unsigned : Bool) :
    JdbcType.ofDeclared (ColumnType.integer kind width unsigned).spelling = kind.jdbcType := by
  have hspelling : (ColumnType.integer kind width unsigned).spelling =
      kind.keyword ++ ((width.elim .unspecified .precision : Digits).spelling ++
        ColumnType.unsignedMark unsigned) := by
    cases width <;> exact String.append_assoc
  have hkeyword : ∀ c ∈ kind.keyword.toList, JdbcType.endsWord c = false := by
    cases kind <;> decide +kernel
  rw [JdbcType.ofDeclared, hspelling,
    JdbcType.declaredWord_append hkeyword (endsWord_arguments _ unsigned)]
  cases kind <;> rfl

theorem ofDeclared_numeric {kind : NumericKind} (hexact : kind.IsExact)
    (digits : Digits) (unsigned : Bool) :
    JdbcType.ofDeclared (ColumnType.numeric kind digits unsigned).spelling = .decimal := by
  have hspelling : (ColumnType.numeric kind digits unsigned).spelling =
      kind.keyword ++ (digits.spelling ++ ColumnType.unsignedMark unsigned) := String.append_assoc
  have hkeyword : ∀ c ∈ kind.keyword.toList, JdbcType.endsWord c = false := by
    cases kind <;> decide +kernel
  rw [JdbcType.ofDeclared, hspelling,
    JdbcType.declaredWord_append hkeyword (endsWord_arguments digits unsigned)]
  cases kind with
  | decimal | dec | numeric => rfl
  | float | double => exact hexact.elim

/-! ## Size and scale -/

theorem isDigit_of_mem_numeral {n : Nat} {c : Char} (hc : c ∈ (toString n).toList) :
    c.isDigit = true := by
  rw [show (toString n).toList = Nat.toDigits 10 n from Nat.toList_repr] at hc
  exact Nat.isDigit_of_mem_toDigits (by decide) (by decide) hc

theorem not_mem_numeral {c : Char} (hc : c.isDigit = false) (n : Nat) :
    c ∉ (toString n).toList := by
  intro hmem
  rw [isDigit_of_mem_numeral hmem] at hc
  exact Bool.noConfusion hc

theorem trim_numeral (n : Nat) : Text.trim (toString n).toList = (toString n).toList := by
  have htable : ∀ n < 58, 48 ≤ n → Text.Span.anyHas Text.blanks n = false := by decide
  refine Text.trim_of_forall fun c hc => ?_
  obtain ⟨hfirst, hlast⟩ := Char.isDigit_iff_toNat.1 (isDigit_of_mem_numeral hc)
  exact htable c.toNat (Nat.lt_succ_of_le hlast) hfirst

/-- A number is one argument. -/
theorem pieces_numeral (n : Nat) :
    Text.pieces (· == ',') (toString n).toList = [(toString n).toList] := by
  refine Text.pieces_of_forall fun c hc => beq_eq_false_iff_ne.2 ?_
  rintro rfl
  exact not_mem_numeral (by decide) n hc

/-- A written number that fits is read back. -/
theorem sizeOf_numeral {n : Nat} (h : n ≤ greatestSize) : sizeOf (toString n).toList = n := by
  have hbare : ∀ rest, (toString n).toList = '+' :: rest → False :=
    fun rest hplus => not_mem_numeral (by decide) n (hplus ▸ List.mem_cons_self)
  have hall : ((toString n).toList.isEmpty || !(toString n).toList.all Char.isDigit) = false := by
    rw [List.all_eq_true.2 fun c hc => isDigit_of_mem_numeral hc, Bool.not_true, Bool.or_false]
    rw [show (toString n).toList = Nat.toDigits 10 n from Nat.toList_repr]
    exact List.isEmpty_eq_false_iff.2 Nat.toDigits_ne_nil
  have hvalue : (toString n).toList.foldl (fun n c => 10 * n + (c.toNat - '0'.toNat)) 0 = n := by
    rw [show (toString n).toList = Nat.toDigits 10 n from Nat.toList_repr,
      ← Nat.ofDigitChars_eq_foldl]
    exact Nat.ofDigitChars_ten_toDigits
  rw [sizeOf.eq_2 _ hbare, hall, if_neg (by decide), hvalue]
  exact if_pos h

/-- What stands between the first parentheses, up to commas. -/
theorem typeArguments_parenthesized {front inner : String} (hfront : '(' ∉ front.toList)
    (hinner : ')' ∉ inner.toList)
    (rest : String) : typeArguments (front ++ ("(" ++ inner ++ ")") ++ rest) =
      (Text.pieces (· == ',') inner.toList).map Text.trim := by
  have htext : (front ++ ("(" ++ inner ++ ")") ++ rest).toList =
      front.toList ++ '(' :: (inner.toList ++ ')' :: rest.toList) := by
    simp only [String.toList_append, List.append_assoc]
    rfl
  rw [typeArguments, htext, Text.splitOnce_append hfront]
  simp only [Text.splitOnce_append hinner]

/-- The numbers that digits declare: the precision, and the scale. -/
def Digits.numbers : Digits → Nat × Int
  | .unspecified => (0, 0)
  | .precision p => (p, 0)
  | .scaled p scale => (p, scale)

/-- **Digits are declared**, by numbers that fit a size and a scale. -/
def Digits.AreDeclared (digits : Digits) : Prop :=
  digits ≠ .unspecified ∧ digits.numbers.1 ≤ greatestSize ∧ 0 ≤ digits.numbers.2 ∧
    digits.numbers.2 ≤ greatestSize

/-- **Declared digits are the size and the scale.** -/
theorem sizeAndScale_numeric (kind : NumericKind) {digits : Digits} (hdigits : digits.AreDeclared)
    (unsigned : Bool) :
    ∃ size scale : Nat, digits.numbers = (size, (scale : Int)) ∧
      sizeAndScale (ColumnType.numeric kind digits unsigned).spelling = (size, scale) := by
  have hkeyword : '(' ∉ kind.keyword.toList := by cases kind <;> decide +kernel
  obtain ⟨hne, hsize, hpositive, hscale⟩ := hdigits
  cases digits with
  | unspecified => exact absurd rfl hne
  | precision p =>
    have hp : p ≤ greatestSize := hsize
    have harguments : typeArguments (ColumnType.numeric kind (.precision p) unsigned).spelling =
        [(toString p).toList] := by
      refine (typeArguments_parenthesized hkeyword (not_mem_numeral (by decide) p) _).trans ?_
      rw [pieces_numeral, List.map_singleton, trim_numeral]
    refine ⟨p, 0, rfl, ?_⟩
    rw [sizeAndScale, harguments]
    simp only [sizeOf_numeral hp]
  | scaled p scale =>
    obtain ⟨s, rfl⟩ := Int.eq_ofNat_of_zero_le hpositive
    have hp : p ≤ greatestSize := hsize
    have hinner : ')' ∉ (toString p ++ "," ++ toString s).toList := by
      simp only [String.toList_append, List.mem_append, not_or]
      exact ⟨⟨not_mem_numeral (by decide) p, by decide +kernel⟩, not_mem_numeral (by decide) s⟩
    have hspelling : (Digits.scaled p s).spelling
        = "(" ++ (toString p ++ "," ++ toString s) ++ ")" := by
      show "(" ++ toString p ++ "," ++ toString s ++ ")" = _
      simp only [String.append_assoc]
    have harguments : typeArguments (ColumnType.numeric kind (.scaled p s) unsigned).spelling =
        [(toString p).toList, (toString s).toList] := by
      show typeArguments (kind.keyword ++ (Digits.scaled p s).spelling ++
          ColumnType.unsignedMark unsigned) = _
      rw [hspelling, typeArguments_parenthesized hkeyword hinner, String.toList_append,
        String.toList_append, List.append_assoc]
      show (Text.pieces (· == ',') ((toString p).toList ++ ',' :: (toString s).toList)).map
          Text.trim = _
      rw [Text.pieces_append_cons rfl, pieces_numeral, pieces_numeral, List.map_append,
        List.map_singleton, List.map_singleton, trim_numeral, trim_numeral]
      rfl
    refine ⟨p, s, rfl, ?_⟩
    rw [sizeAndScale, harguments]
    simp only [sizeOf_numeral hp, sizeOf_numeral (Int.ofNat_le.1 hscale)]

/-! ## Options -/

namespace ColumnDefinition

/-- **What no option of a column touches is as the column is declared.** -/
theorem row_part {α : Type} (part : RawColumn → α)
    (hpart : ∀ row option, part (ColumnOption.apply row option) = part row) (table : TableRef)
    (c : ColumnDefinition) :
    part (c.row table) = part (c.bareRow table) := by
  have hrun : ∀ (options : List ColumnOption) row,
      part (options.foldl ColumnOption.apply row) = part row := by
    intro options
    induction options with
    | nil => exact fun _ => rfl
    | cons option options ih => exact fun row => (ih _).trans (hpart row option)
  exact hrun c.options _

theorem bareRow_eq (table : TableRef) (c : ColumnDefinition) : c.bareRow table =
    { table
      name := c.name.text
      typeCode := (JdbcType.ofDeclared c.type.spelling).code
      typeName := c.type.spelling
      size := (sizeAndScale c.type.spelling).1
      scale := (sizeAndScale c.type.spelling).2
      nullable := true
      remarks := none
      defaultValue := none
      autoIncrement := false
      generated := false } := by
  rw [bareRow]

@[simp] theorem name_row (table : TableRef) (c : ColumnDefinition) :
    (c.row table).name = c.name.text := by
  rw [row_part (·.name) (fun _ option => by cases option <;> rfl), bareRow_eq]

@[simp] theorem table_row (table : TableRef) (c : ColumnDefinition) :
    (c.row table).table = table := by
  rw [row_part (·.table) (fun _ option => by cases option <;> rfl), bareRow_eq]

@[simp] theorem typeCode_row (table : TableRef) (c : ColumnDefinition) :
    (c.row table).typeCode = (JdbcType.ofDeclared c.type.spelling).code := by
  rw [row_part (·.typeCode) (fun _ option => by cases option <;> rfl), bareRow_eq]

@[simp] theorem size_row (table : TableRef) (c : ColumnDefinition) :
    (c.row table).size = (sizeAndScale c.type.spelling).1 := by
  rw [row_part (·.size) (fun _ option => by cases option <;> rfl), bareRow_eq]

@[simp] theorem scale_row (table : TableRef) (c : ColumnDefinition) :
    (c.row table).scale = (sizeAndScale c.type.spelling).2 := by
  rw [row_part (·.scale) (fun _ option => by cases option <;> rfl), bareRow_eq]

end ColumnDefinition

end Ddl

end TableMapper
