import TableMapper.Proofs.Artifact.DeclaredOnce

/-!
# Accessors of different properties

The suffix of an accessor need not tell the property: `order` and `Order` have
the same one. The bean convention reads a property back from a suffix by taking
the first character to lower case, unless the second is upper case
(`decapitalize`). Writer and reader both look at the second character, which
may come from any script, and it is the same in the property and in the suffix
as long as the first one is replaced by one character. **So a property that
begins with a letter from `a` to `z` is read back**
(`decapitalize_accessorSuffix`), **and the accessors of two such properties are
different** (`getter_eq_iff`, `setter_eq_iff`). In a class with such properties
no two getters clash, unless two properties do
(`BeanProperty.areApart_iff_of_beginsLower`).
-/

namespace TableMapper

namespace Naming

/-- The second character of a name is upper case, in any script. -/
def hasUpperSecond (name : String) : Bool :=
  name.toList.tail.head?.any Text.isUppercase

/-- **The property that a suffix stands for**: the suffix with its first
character in lower case, unless the second is upper case. -/
def decapitalize (suffix : String) : String :=
  if hasUpperSecond suffix then suffix
  else
    match suffix.toList with
    | [] => ""
    | first :: rest => String.ofList (Text.lower first ++ rest)

/-- A property begins with a letter from `a` to `z`. -/
def beginsLower (property : String) : Bool :=
  property.toList.head?.any Char.isLower

/-- A suffix begins with a letter from `A` to `Z`. -/
def beginsUpper (suffix : String) : Bool :=
  suffix.toList.head?.any Char.isUpper

variable {p q : String} {first c : Char} {rest : List Char}

theorem exists_of_beginsLower (h : beginsLower p = true) :
    ∃ first rest, p.toList = first :: rest ∧ first.isLower = true := by
  obtain ⟨first, hfirst, hlower⟩ := (Option.any_eq_true _ _).1 h
  obtain ⟨rest, hp⟩ := List.head?_eq_some_iff.1 hfirst
  exact ⟨first, rest, hp, hlower⟩

/-- **A letter from `a` to `z` has one upper-case letter, from which it is
read back.** -/
theorem exists_upper_of_isLower (h : c.isLower = true) :
    ∃ capital, Text.upper c = [capital] ∧ Text.lower capital = [c] ∧ capital.isUpper = true ∧
    c.isUpper = false := by
  have htable : ∀ n < 123, 97 ≤ n → Text.upper (Char.ofNat n) = [Char.ofNat (n - 32)] ∧
      Text.lower (Char.ofNat (n - 32)) = [Char.ofNat n] ∧ (Char.ofNat (n - 32)).isUpper = true ∧
      (Char.ofNat n).isUpper = false := by
    decide +kernel
  obtain ⟨hlow, hhigh⟩ :=
    Bool.and_eq_true_iff.1 (show (decide (97 ≤ c.toNat) && decide (c.toNat ≤ 122)) = true from h)
  have hc := htable c.toNat (Nat.lt_succ_of_le (of_decide_eq_true hhigh)) (of_decide_eq_true hlow)
  rw [Char.ofNat_toNat] at hc
  exact ⟨_, hc⟩

/-! ## Suffixes -/

theorem accessorSuffix_of_upper (h : hasUpperSecond p = true) : accessorSuffix p = p := by
  rw [hasUpperSecond] at h
  rw [accessorSuffix]
  rcases hp : p.toList with _ | ⟨first, _ | ⟨second, rest⟩⟩
  · rw [hp] at h
    cases h
  · rw [hp] at h
    cases h
  · rw [hp] at h
    exact if_pos h

theorem accessorSuffix_of_not_upper (hp : p.toList = first :: rest) (h : hasUpperSecond p = false) :
    accessorSuffix p = String.ofList (Text.upper first ++ rest) := by
  rw [hasUpperSecond, hp] at h
  rw [accessorSuffix, hp]
  cases rest with
  | nil => exact congrArg String.ofList (List.append_nil _).symm
  | cons second rest => exact if_neg (Bool.eq_false_iff.1 h)

/-- What a suffix consists of if the property is capitalised. -/
theorem exists_accessorSuffix (hp : beginsLower p = true) (h : hasUpperSecond p = false) :
    ∃ first capital rest, p = String.ofList (first :: rest) ∧
    accessorSuffix p = String.ofList (capital :: rest) ∧
      Text.lower capital = [first] ∧ capital.isUpper = true := by
  obtain ⟨first, rest, hcut, hlower⟩ := exists_of_beginsLower hp
  obtain ⟨capital, hupper, hback, hcapital, -⟩ := exists_upper_of_isLower hlower
  refine ⟨first, capital, rest, ?_, ?_, hback, hcapital⟩
  · rw [← hcut, String.ofList_toList]
  · rw [accessorSuffix_of_not_upper hcut h, hupper]
    rfl

/-- **The second character of the suffix is that of the property.** -/
theorem hasUpperSecond_accessorSuffix (hp : beginsLower p = true) :
    hasUpperSecond (accessorSuffix p) = hasUpperSecond p := by
  cases h : hasUpperSecond p with
  | true => rw [accessorSuffix_of_upper h, h]
  | false =>
    obtain ⟨first, capital, rest, rfl, hsuffix, -⟩ := exists_accessorSuffix hp h
    rw [hasUpperSecond, String.toList_ofList] at h
    rw [hsuffix, hasUpperSecond, String.toList_ofList]
    exact h

/-- **A suffix begins with a capital letter**, unless the second character of
the property is one. -/
theorem beginsUpper_accessorSuffix (hp : beginsLower p = true) :
    beginsUpper (accessorSuffix p) = !hasUpperSecond p := by
  cases h : hasUpperSecond p with
  | true =>
    obtain ⟨first, rest, hcut, hlower⟩ := exists_of_beginsLower hp
    obtain ⟨-, -, -, -, hfirst⟩ := exists_upper_of_isLower hlower
    rw [accessorSuffix_of_upper h, beginsUpper, hcut]
    exact hfirst
  | false =>
    obtain ⟨first, capital, rest, -, hsuffix, -, hcapital⟩ := exists_accessorSuffix hp h
    rw [hsuffix, beginsUpper, String.toList_ofList]
    exact hcapital

/-- **The property is read back from the suffix.** -/
theorem decapitalize_accessorSuffix (hp : beginsLower p = true) :
    decapitalize (accessorSuffix p) = p := by
  rw [decapitalize, hasUpperSecond_accessorSuffix hp]
  cases h : hasUpperSecond p with
  | true =>
    rw [if_pos rfl]
    exact accessorSuffix_of_upper h
  | false =>
    obtain ⟨first, capital, rest, rfl, hsuffix, hback, -⟩ := exists_accessorSuffix hp h
    rw [if_neg Bool.false_ne_true, hsuffix, String.toList_ofList]
    show String.ofList (Text.lower capital ++ rest) = _
    rw [hback]
    rfl

theorem accessorSuffix_eq_iff (hp : beginsLower p = true) (hq : beginsLower q = true) :
    accessorSuffix p = accessorSuffix q ↔ p = q := by
  constructor
  · intro h
    rw [← decapitalize_accessorSuffix hp, h, decapitalize_accessorSuffix hq]
  · exact congrArg accessorSuffix

/-! ## Accessors -/

theorem setter_eq_iff (hp : beginsLower p = true) (hq : beginsLower q = true) :
    setter p = setter q ↔ p = q :=
  (String.append_right_inj "set").trans (accessorSuffix_eq_iff hp hq)

/-- Getters of both kinds differ in their first letter. -/
theorem head?_getter (p : String) (primitiveBoolean : Bool) :
    (getter p primitiveBoolean).toList.head? = some (if primitiveBoolean then 'i' else 'g') := by
  rw [getter, String.toList_append]
  cases primitiveBoolean <;> rfl

theorem head?_setter (p : String) : (setter p).toList.head? = some 's' := by
  rw [setter, String.toList_append]
  rfl

/-- **A getter tells the property and whether it is a primitive boolean.** -/
theorem getter_eq_iff (hp : beginsLower p = true) (hq : beginsLower q = true) (b c : Bool) :
    getter p b = getter q c ↔ p = q ∧ b = c := by
  have hflag : ∀ b c : Bool, some (if b then 'i' else 'g') = some (if c then 'i' else 'g') →
      b = c := by decide
  constructor
  · intro h
    have hhead := congrArg (·.toList.head?) h
    simp only [head?_getter] at hhead
    obtain rfl := hflag b c hhead
    exact ⟨(accessorSuffix_eq_iff hp hq).1 ((String.append_right_inj _).1 h), rfl⟩
  · rintro ⟨rfl, rfl⟩
    rfl

/-- **No getter is a setter**, whatever the properties are. -/
theorem getter_ne_setter (p q : String) (primitiveBoolean : Bool) :
    getter p primitiveBoolean ≠ setter q := by
  intro h
  have hhead := congrArg (·.toList.head?) h
  simp only [head?_getter, head?_setter] at hhead
  cases primitiveBoolean <;> exact absurd hhead (by decide)

end Naming

/-- **Properties that begin with letters from `a` to `z` can stand in one class
exactly if their names are distinct**: their getters are then, too. -/
theorem BeanProperty.areApart_iff_of_beginsLower {ps : List BeanProperty}
    (h : ∀ p ∈ ps, Naming.beginsLower p.name = true) : AreApart ps ↔ (ps.map (·.name)).Nodup := by
  refine ⟨AreApart.names, fun hnames => ⟨hnames, ?_⟩⟩
  rw [List.Nodup, List.pairwise_map] at hnames ⊢
  refine hnames.imp_of_mem fun {p q} hp hq hne heq => hne ?_
  exact ((Naming.getter_eq_iff (h p hp) (h q hq) _ _).1 heq).1

namespace Naming

variable {p q : String}

/-- **Accessors follow the bean convention and stay apart.** The suffix is
capitalised unless the second character of the property is upper case, and the
property is read back from it; two properties with one getter or one setter are
the same, and a getter is no setter. -/
theorem accessors_stay_apart (hp : beginsLower p = true) (hq : beginsLower q = true) :
    beginsUpper (accessorSuffix p) = !hasUpperSecond p ∧ decapitalize (accessorSuffix p) = p ∧
      (∀ b c, getter p b = getter q c ↔ p = q ∧ b = c) ∧ (setter p = setter q ↔ p = q) ∧
      ∀ b, getter p b ≠ setter q :=
  ⟨beginsUpper_accessorSuffix hp, decapitalize_accessorSuffix hp, getter_eq_iff hp hq,
    setter_eq_iff hp hq, getter_ne_setter p q⟩

/-- Two properties that differ in the case of the second character only. -/
theorem accessors_stay_apart_xAxis : beginsLower "xAxis" = true ∧ beginsLower "xaxis" = true ∧
    accessorSuffix "xAxis" = "xAxis" ∧ accessorSuffix "xaxis" = "Xaxis" ∧
    decapitalize (accessorSuffix "xAxis") = "xAxis" ∧ getter "xAxis" false ≠ getter "xaxis" false ∧
    setter "xAxis" ≠ setter "xaxis" ∧ getter "xAxis" false ≠ setter "xaxis" := by
  have hne : "xAxis" ≠ "xaxis" := by decide
  obtain ⟨-, hback, hgetter, hsetter, hapart⟩ :=
    accessors_stay_apart (p := "xAxis") (q := "xaxis") (by decide) (by decide)
  exact ⟨by decide, by decide, by decide, by decide, hback, fun h => hne ((hgetter _ _).1 h).1,
    fun h => hne (hsetter.1 h), hapart false⟩

/-- A property that begins with a capital letter shares its accessors. -/
example : accessorSuffix "Order" = accessorSuffix "order" := by decide

end Naming

end TableMapper
