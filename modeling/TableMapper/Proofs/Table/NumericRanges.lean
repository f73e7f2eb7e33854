import Mathlib.Algebra.Order.Ring.Abs
import Mathlib.Algebra.Order.Field.Rat
import Mathlib.Tactic.NormNum
import TableMapper.Proofs.Ddl.DeclaredTypes
import TableMapper.Table.Introspection

/-!
# Ranges of numeric columns

A column with an integral Java type can only be read as far as its values
fit. A Java integer has one bit of sign, so the values of a signed integer
column fit into the type of as many bits, and those of an unsigned one do
not. A decimal column of `p` digits fits if `10 ^ p` does, and the limits of
4, 9 and 18 digits are where it just does.

The mark `UNSIGNED` is not read. So **a numeric column whose digits are
declared loses nothing, but for an unsigned type of 16, 32 or 64 bits, which
loses the upper half of its values** (`keepsRange_resolveColumn_iff`).
-/

namespace TableMapper

/-- An integer of so many bits. -/
def InBits (bits : Nat) (unsigned : Bool) (n : Int) : Prop :=
  if unsigned then 0 ≤ n ∧ n < 2 ^ bits else -2 ^ (bits - 1) ≤ n ∧ n < 2 ^ (bits - 1)

namespace Ddl

/-! ## The values of a column -/

/-- The bits of an integer type. -/
def IntegerKind.bits : IntegerKind → Nat
  | .tinyint => 8
  | .smallint | .int2 => 16
  | .mediumint => 24
  | .int | .integer | .int4 => 32
  | .bigint | .int8 => 64

/-- The precision and the scale of a column: ten digits when none are
declared. -/
def Digits.effective : Digits → Nat × Int
  | .unspecified => (10, 0)
  | digits => digits.numbers

namespace ColumnType

/-- **The values that a column of a numeric type holds.** -/
inductive Holds : ColumnType → Rat → Prop
  | integer {kind : IntegerKind} {width : Option Nat} {unsigned : Bool} {n : Int}
      (h : InBits kind.bits unsigned n) :
    Holds (.integer kind width unsigned) n
  | numeric {kind : NumericKind} {digits : Digits} {unsigned : Bool} {n : Int}
    (h : |n| < 10 ^ digits.effective.1) (hsign : unsigned = true → 0 ≤ n) :
    Holds (.numeric kind digits unsigned) (n * 10 ^ (-digits.effective.2))

/-- A numeric type of which the values are exact. -/
def IsExact : ColumnType → Prop
  | .integer .. => True
  | .numeric kind _ _ => kind.IsExact
  | _ => False

/-- The digits are declared, if the type can have some. -/
def DeclaresDigits : ColumnType → Prop
  | .numeric _ digits _ => digits.AreDeclared
  | _ => True

/-- **An unsigned type of 16, 32 or 64 bits.** -/
def IsWideUnsigned : ColumnType → Prop
  | .integer kind _ unsigned => unsigned = true ∧ kind ∈ [.smallint, .int, .integer, .bigint]
  | _ => False

end ColumnType

end Ddl

/-! ## The values of a Java type -/

/-- The integral Java types that columns are given. -/
inductive IntegralType
  | short | integer | long
deriving DecidableEq

namespace IntegralType

def name : IntegralType → String
  | .short => "java.lang.Short"
  | .integer => "java.lang.Integer"
  | .long => "java.lang.Long"

def bits : IntegralType → Nat
  | .short => 16
  | .integer => 32
  | .long => 64

end IntegralType

/-- **A Java type keeps the range of a column type**: if it is an integral
one, it has every value that the column holds. -/
def JavaType.KeepsRange (java : JavaType) (type : Ddl.ColumnType) : Prop :=
  ∀ integral : IntegralType, java = .named integral.name → ∀ value, type.Holds value →
    ∃ n : Int, value = n ∧ InBits integral.bits false n

/-! ## Bits -/

/-- **What fits into how many bits**: an unsigned integer needs one more. -/
theorem forall_inBits_iff {bits wider : Nat} {unsigned : Bool} (hbits : 0 < bits)
    (hwider : 0 < wider) :
    (∀ n, InBits bits unsigned n → InBits wider false n) ↔ bits + unsigned.toNat ≤ wider := by
  have hpos : ∀ k : Nat, (0 : Int) < 2 ^ k := fun k => pow_pos (by decide) k
  have hmono : ∀ k l : Nat, (2 : Int) ^ k ≤ 2 ^ l ↔ k ≤ l :=
    fun k l => pow_le_pow_iff_right₀ (by decide)
  cases unsigned with
  | false =>
    constructor
    · intro h
      -- the greatest integer of so many bits
      have hlast := (h (2 ^ (bits - 1) - 1) ⟨by have := hpos (bits - 1); omega, by omega⟩).2
      have hle := (hmono (bits - 1) (wider - 1)).1 (by omega)
      simp only [Bool.toNat_false]
      omega
    · intro h n hn
      have hle := (hmono (bits - 1) (wider - 1)).2 (by simp only [Bool.toNat_false] at h; omega)
      exact ⟨(neg_le_neg hle).trans hn.1, hn.2.trans_le hle⟩
  | true =>
    constructor
    · intro h
      have hlast := (h (2 ^ bits - 1) ⟨by have := hpos bits; omega, by omega⟩).2
      have hle := (hmono bits (wider - 1)).1 (by omega)
      simp only [Bool.toNat_true]
      omega
    · intro h n hn
      have hle := (hmono bits (wider - 1)).2 (by simp only [Bool.toNat_true] at h; omega)
      exact ⟨(neg_nonpos.2 (hpos _).le).trans hn.1, hn.2.trans_le hle⟩

namespace IntegralType

theorem name_injective {a b : IntegralType} (h : a.name = b.name) : a = b := by
  cases a <;> cases b <;> first | rfl | exact absurd h (by decide)

/-- A decimal is narrowed to a type that has all its digits. -/
theorem of_decimalType {options : TypeOptions} {precision scale : Nat} {integral : IntegralType}
    (h : options.decimalType precision scale = integral.name) :
    scale = 0 ∧ (10 : Int) ^ precision ≤ 2 ^ (integral.bits - 1) := by
  have hdigits : ∀ digits, precision ≤ digits → (10 : Int) ^ precision ≤ 10 ^ digits :=
    fun digits hle => pow_le_pow_right₀ (by decide) hle
  rw [TypeOptions.decimalType] at h
  split at h
  case isTrue => cases integral <;> exact absurd h (by decide)
  case isFalse hwhole =>
    simp only [Bool.or_eq_true, decide_eq_true_eq, not_or] at hwhole
    obtain ⟨⟨hscale, hlong⟩, -⟩ := hwhole
    refine ⟨by omega, ?_⟩
    split at h
    case isTrue =>
      obtain rfl := name_injective (a := .long) h
      exact (hdigits 18 (by omega)).trans (by decide)
    case isFalse hinteger =>
      split at h
      case isTrue =>
        obtain rfl := name_injective (a := .integer) h
        exact (hdigits 9 (by omega)).trans (by decide)
      case isFalse hshort =>
        obtain rfl := name_injective (a := .short) h
        exact (hdigits 4 (by omega)).trans (by decide)

end IntegralType

/-! ## Which types keep their range -/

theorem JavaType.named_injective {a b : String} (h : JavaType.named a = .named b) : a = b :=
  congrArg qualifiedName h

/-- An integral type keeps the integers that it has the bits for. -/
theorem IntegralType.keepsRange_integer_iff {integral : IntegralType}
    {kind : Ddl.IntegerKind} {width : Option Nat}
    {unsigned : Bool} : (JavaType.named integral.name).KeepsRange (.integer kind width unsigned) ↔
      kind.bits + unsigned.toNat ≤ integral.bits := by
  rw [← forall_inBits_iff (by cases kind <;> decide) (by cases integral <;> decide)]
  constructor
  · intro h n hn
    obtain ⟨m, heq, hm⟩ := h integral rfl n (.integer hn)
    exact Rat.intCast_inj.1 heq ▸ hm
  · rintro h _ hjava value ⟨hn⟩
    obtain rfl := IntegralType.name_injective (JavaType.named_injective hjava)
    exact ⟨_, rfl, h _ hn⟩

/-- **Decimals with declared digits keep their range.** -/
theorem keepsRange_decimalType {options : TypeOptions} {kind : Ddl.NumericKind}
    {digits : Ddl.Digits} {unsigned : Bool}
    {precision scale : Nat} (hdigits : digits.effective = (precision, (scale : Int))) :
    (JavaType.named (options.decimalType precision scale)).KeepsRange
    (.numeric kind digits unsigned) := by
  intro integral hjava value hvalue
  obtain ⟨rfl, hbits⟩ := IntegralType.of_decimalType (JavaType.named_injective hjava)
  cases hvalue with
  | numeric hn =>
    rw [hdigits] at hn ⊢
    obtain ⟨hlow, hhigh⟩ := abs_lt.1 (hn.trans_le hbits)
    exact ⟨_, by simp, hlow.le, hhigh⟩

/-- No decimal is narrowed when this is forbidden. -/
theorem keepsRange_forced {options : TypeOptions} (hforce : options.forceBigDecimals = true)
    {precision scale : Nat}
    (type : Ddl.ColumnType) :
    (JavaType.named (options.decimalType precision scale)).KeepsRange type := by
  intro integral hjava
  have hname := JavaType.named_injective hjava
  rw [TypeOptions.decimalType, hforce, Bool.or_true, if_pos rfl] at hname
  cases integral <;> exact absurd hname (by decide)

namespace Introspection

open Ddl

variable {settings : Settings} {spec : TableSpec} {renamer : Option Renamer} {table : TableRef}
  {c : ColumnDefinition}

/-- Without an override a column has the type its row resolves to. -/
theorem javaType_resolveColumn (row : RawColumn)
    (hoverride : (spec.overrideFor? row.name).bind (·.javaType) = none) :
    (resolveColumn settings spec renamer row).javaType =
      (((typeOptions settings).resolve? row).getD .untyped).javaType := by
  rw [resolveColumn]
  simp only [hoverride]

/-- The integral type for an integer type. -/
def integralType? : IntegerKind → Option IntegralType
  | .tinyint | .mediumint | .int | .integer => some .integer
  | .smallint => some .short
  | .bigint => some .long
  | .int2 | .int4 | .int8 => none

theorem resolve?_integer {options : TypeOptions} {kind : IntegerKind}
    {width : Option Nat} {unsigned : Bool}
    (htype : c.type = .integer kind width unsigned) :
    (options.resolve? (c.row table)).getD .untyped =
      ((integralType? kind).elim ResolvedType.untyped fun integral =>
        ⟨.named integral.name, kind.jdbcType.name⟩) := by
  rw [TypeOptions.resolve?, ColumnDefinition.typeCode_row, htype, ofDeclared_integer,
    JdbcType.ofCode?_code]
  cases kind <;> rfl

theorem resolve?_numeric {options : TypeOptions} {kind : NumericKind}
    {digits : Digits} {unsigned : Bool}
    (htype : c.type = .numeric kind digits unsigned) (hexact : kind.IsExact) :
    (options.resolve? (c.row table)).getD .untyped =
      ⟨.named (options.decimalType (c.row table).size (c.row table).scale),
        JdbcType.decimal.name⟩ := by
  rw [TypeOptions.resolve?, ColumnDefinition.typeCode_row, htype, ofDeclared_numeric hexact,
    JdbcType.ofCode?_code]
  rfl

/-- **A numeric column keeps its range, unless it is of a wide unsigned
type.** Digits have to be declared, since a precision that is absent counts as
the least. -/
theorem keepsRange_resolveColumn_iff (hexact : c.type.IsExact)
    (hdigits : settings.forceBigDecimals = true ∨ c.type.DeclaresDigits)
    (hoverride : (spec.overrideFor? c.name.text).bind (·.javaType) = none) :
    (resolveColumn settings spec renamer (c.row table)).javaType.KeepsRange c.type ↔ ¬ c.type.IsWideUnsigned := by
  rw [javaType_resolveColumn _ (by rwa [ColumnDefinition.name_row])]
  cases htype : c.type with
  | integer kind width unsigned =>
    rw [resolve?_integer htype]
    cases hintegral : integralType? kind with
    | none =>
      refine iff_of_true (fun integral hjava => ?_) fun hwide => ?_
      · have hname := JavaType.named_injective (a := "java.lang.Object") hjava
        cases integral <;> exact absurd hname (by decide)
      · obtain ⟨-, hkind⟩ := hwide
        cases kind <;> first | exact absurd hkind (by decide) | exact nomatch hintegral
    | some integral =>
      refine IntegralType.keepsRange_integer_iff.trans ?_
      show _ ↔ ¬ (unsigned = true ∧ kind ∈ [.smallint, .int, .integer, .bigint])
      cases kind <;> cases hintegral <;> cases unsigned <;> decide
  | numeric kind digits unsigned =>
    rw [htype] at hexact hdigits
    rw [resolve?_numeric htype hexact]
    refine iff_of_true ?_ not_false
    obtain hforce | hdeclared := hdigits
    · exact keepsRange_forced hforce _
    · obtain ⟨size, scale, hnumbers, hread⟩ := sizeAndScale_numeric kind hdeclared unsigned
      rw [ColumnDefinition.size_row, ColumnDefinition.scale_row, htype, hread]
      refine keepsRange_decimalType ?_
      cases digits with
      | unspecified => exact absurd rfl hdeclared.1
      | precision | scaled => exact hnumbers
  | sized | members | interval | custom =>
    rw [htype] at hexact
    exact False.elim hexact

/-- A column of a type, without options. -/
def bareColumn (name : String) (type : ColumnType) : ColumnDefinition :=
  ⟨⟨name, none⟩, type, []⟩

/-- Nine digits fit, and so does an unsigned type of eight bits. -/
theorem keepsRange_resolveColumn_amount :
    (resolveColumn {} (.named "t") none
      ((bareColumn "amount" (.numeric .decimal (.precision 9) false)).row (.plain "t"))).javaType.KeepsRange
      (.numeric .decimal (.precision 9) false) ∧
    (resolveColumn {} (.named "t") none
      ((bareColumn "code" (.integer .tinyint none true)).row (.plain "t"))).javaType.KeepsRange
      (.integer .tinyint none true) := by
  have hdigits : (Digits.precision 9).AreDeclared :=
    ⟨nofun, by show 9 ≤ greatestSize; decide, Int.le_refl 0, Int.natCast_nonneg _⟩
  constructor
  · refine (keepsRange_resolveColumn_iff
      (c := bareColumn "amount" (.numeric .decimal (.precision 9) false)) ?_ ?_ ?_).2 ?_
    · exact trivial
    · exact .inr hdigits
    · rfl
    · exact not_false
  · refine (keepsRange_resolveColumn_iff (c := bareColumn "code" (.integer .tinyint none true))
      ?_ ?_ ?_).2 ?_
    · exact trivial
    · exact .inr trivial
    · rfl
    · exact fun hwide => absurd hwide.2 (by decide)

theorem not_keepsRange_of_holds {java : JavaType} (integral : IntegralType)
    {type : ColumnType} {n : Int}
    (hjava : java = .named integral.name) (hholds : type.Holds n)
    (hout : ¬ InBits integral.bits false n) :
    ¬ java.KeepsRange type := by
  intro h
  obtain ⟨m, heq, hm⟩ := h integral hjava n hholds
  exact hout (Rat.intCast_inj.1 heq ▸ hm)

/-- **The sign and the default precision are not seen**: three milliards are
too many for an `Integer`, and a hundred thousand for a `Short`. -/
theorem not_keepsRange_unsigned :
    tableDefinitions? "create table t (counted int unsigned, amount decimal)" = some [⟨[⟨"t", none⟩],
      [bareColumn "counted" (.integer .int none true), bareColumn "amount" (.numeric .decimal .unspecified false)],
      [], []⟩] ∧
    (ColumnType.integer .int none true).Holds (3000000000 : Int) ∧
    (ColumnType.numeric .decimal .unspecified false).Holds (100000 : Int) ∧
    ∀ type ∈ [ColumnType.integer .int none true, .numeric .decimal .unspecified false], ∀ name,
      ¬ (resolveColumn {} (.named "t") none ((bareColumn name type).row (.plain "t"))).javaType.KeepsRange type := by
  have hcounted : (ColumnType.integer .int none true).Holds (3000000000 : Int) :=
    .integer ⟨by decide, by decide⟩
  have hamount : (ColumnType.numeric .decimal .unspecified false).Holds (100000 : Int) := by
    have hvalue : (ColumnType.numeric .decimal .unspecified false).Holds
        ((100000 : Int) * 10 ^ (-(0 : Int))) :=
      .numeric (by decide) nofun
    simpa using hvalue
  refine ⟨by decide +kernel, hcounted, hamount, ?_⟩
  simp only [List.forall_mem_cons, List.not_mem_nil, false_implies, implies_true, and_true]
  constructor
  · intro name
    refine not_keepsRange_of_holds .integer ?_ hcounted fun h => absurd h.2 (by decide)
    rw [javaType_resolveColumn _ rfl, resolve?_integer rfl]
    rfl
  · intro name
    have hread : sizeAndScale (ColumnType.numeric .decimal .unspecified false).spelling
        = (0, 0) := by decide +kernel
    refine not_keepsRange_of_holds .short ?_ hamount fun h => absurd h.2 (by decide)
    rw [javaType_resolveColumn _ rfl,
      resolve?_numeric (c := bareColumn name (.numeric .decimal .unspecified false)) rfl
        (by exact trivial), ColumnDefinition.size_row,
        ColumnDefinition.scale_row, bareColumn, hread]
    rfl

end Introspection

end TableMapper
