import TableMapper.Proofs.Merge.OwnComments
import TableMapper.Proofs.Unit.Prologue
import TableMapper.Proofs.Unit.TypeFile
import TableMapper.Proofs.Unit.TypeHeader

/-!
# Which declarations are refused

A file is only merged into if its type is of the kind of the fresh one and, if
it is a class, extends the same class. Which class it extends is said by the
name in its header together with its package and imports; the merge compares no
more than the last parts of the two names, and it knows neither the sign of an
annotation type that stands on its own nor a header with more than one line. So
**all incompatible declarations are refused except three**
(`JavaUnit.refusesIncompatible_iff`): an annotation type counts as an interface,
a class whose header names types on several lines counts as one that extends
none, and two classes with one last name count as one.
-/

namespace TableMapper

open Source

/-- The characters of a name in no brackets, of which so many are open. -/
def outsideBrackets (opened : Nat) : List Char → List Char
  | [] => []
  | c :: rest =>
    if c = '<' then outsideBrackets (opened + 1) rest
    else if c = '>' then outsideBrackets (opened - 1) rest
    else if opened = 0 then c :: outsideBrackets opened rest
    else outsideBrackets opened rest

/-- The name of a class without arguments and blanks. -/
def className (cs : List Char) : List Char :=
  pathName (outsideBrackets 0 cs)

/-- The first type that is extended. -/
def Source.TypeHeader.superclass (h : TypeHeader) : Option (List Char) :=
  h.extended.bind (·.entries.head?)

/-- **A file, read by its structure**: its kind, its package and imports and
its header. -/
structure TypeFile.IsRead (f : TypeFile) (kind : DeclaredKind) (p : Prologue)
    (h : TypeHeader) : Prop
    extends f.IsDeclaredAs kind where
  prologue : p.IsPrologue
  prologue_code : codes (ofText f.front) = p.code
  /-- Constants and components of a record are no part of a header. -/
  isHeader : kind ≠ .enum → kind ≠ .record → h.IsHeader ∧ blanked (ofText f.header) = h.code

namespace JavaUnit

/-- **The two classes extend the same class**, or none. -/
def SameSuperclass (p : Prologue) (old : Option (List Char)) (fresh : Option JavaType) : Prop :=
  old = none ∧ fresh = none ∨
    ∃ name t, old = some name ∧ fresh = some t ∧ p.Denotes (className name) t.qualifiedName.toList

/-- **The declarations are compatible**: both of one kind, and classes that
extend the same class. -/
def CompatibleWith (fresh : JavaUnit) (kind : DeclaredKind) (p : Prologue)
    (h : TypeHeader) : Prop :=
  kind = fresh.kind.declared ∧
    (fresh.kind = .class → SameSuperclass p h.superclass fresh.superclass)

/-- **An incompatible declaration is refused.** -/
def RefusesIncompatible (fresh : JavaUnit) (f : TypeFile) (kind : DeclaredKind)
    (p : Prologue) (h : TypeHeader) :
    Prop :=
  ¬ fresh.CompatibleWith kind p h → ∃ reason, fresh.mergeInto f.text = .error reason

section

variable {fresh : JavaUnit} {f : TypeFile} {kind : DeclaredKind} {p : Prologue} {h : TypeHeader}

theorem exists_error_iff {existing : String} {old : Declared}
    (hold : Declared.ofSource? (ofText existing) = some old) :
    (∃ reason, fresh.mergeInto existing = .error reason) ↔
      ¬ (old.kind = fresh.kind.declared ∧
        old.superclass.map baseName = fresh.superclass.map interfaceKey) := by
  rw [← checkDeclared_iff, mergeInto_of_declared hold]
  cases fresh.checkDeclared old <;> simp [Except.map]

/-- **The class that a class is taken to extend**: the one named, if the header
names all types on one line. -/
theorem superclass_declared (hf : f.IsRead .class p h) :
    (f.declared .class).superclass
      = if h.OnOneLine then h.superclass.map String.ofList else none := by
  obtain ⟨hheader, hcode⟩ := hf.isHeader (by decide) (by decide)
  have hkind : f.seenKind .class = .class := f.seenKind_of_ne (by decide)
  have hread : (f.declared .class).superclass = (clauses h.code).extends?.head? := by
    rw [TypeFile.declared, Declared.ofDeclaration]
    simp only [hkind, hcode]
    rfl
  rw [hread, hheader.clauses_code]
  by_cases hline : h.OnOneLine
  · rw [if_pos hline, if_pos hline, TypeHeader.named, TypeHeader.superclass]
    cases h.extended with
    | none => rfl
    | some c => exact List.head?_map ..
  · rw [if_neg hline, if_neg hline]
    rfl

/-- What an interface extends is no class. -/
theorem superclass_declared_interface (hseen : f.seenKind kind = .interface) :
    (f.declared kind).superclass = none := by
  rw [TypeFile.declared, Declared.ofDeclaration]
  simp only [hseen]
  rfl

/-- When a class is refused, if the fresh unit is a class too. -/
theorem exists_error_class_iff (hf : f.IsRead .class p h) (hkind : fresh.kind = .class) :
    (∃ reason, fresh.mergeInto f.text = .error reason) ↔
      ¬ ((if h.OnOneLine then h.superclass.map (baseName ∘ String.ofList) else none)
        = fresh.superclass.map interfaceKey) := by
  have hold : (f.declared .class).superclass.map baseName
      = if h.OnOneLine then h.superclass.map (baseName ∘ String.ofList) else none := by
    rw [superclass_declared hf]
    split
    · rw [Option.map_map]
    · rfl
  have hseen : f.seenKind .class = .class := f.seenKind_of_ne (by decide)
  have hsame : (f.declared .class).kind = fresh.kind.declared := by
    rw [hkind]
    exact hseen
  rw [exists_error_iff hf.ofSource?_text, hold, not_and, imp_iff_right hsame]

/-- **A class is refused where it should be** exactly if its superclass is
read, and goes by a last name that no other class has. -/
theorem refuses_class_iff (hf : f.IsRead .class p h) (hkind : fresh.kind = .class) :
    fresh.RefusesIncompatible f .class p h ↔ ∀ name ∈ h.superclass,
      if h.OnOneLine then ∀ t ∈ fresh.superclass,
      baseName (String.ofList name) = baseName t.shortName →
        p.Denotes (className name) t.qualifiedName.toList
      else fresh.superclass ≠ none := by
  have hcompatible : fresh.CompatibleWith .class p h ↔
      SameSuperclass p h.superclass fresh.superclass := by
    rw [CompatibleWith, hkind]
    exact ⟨fun hboth => hboth.2 rfl, fun hsame => ⟨rfl, fun _ => hsame⟩⟩
  rw [RefusesIncompatible, exists_error_class_iff hf hkind, not_imp_not,
    hcompatible, SameSuperclass]
  cases hold : h.superclass with
  | none => cases hsuper : fresh.superclass <;> simp
  | some name =>
    by_cases hline : h.OnOneLine
    · cases hsuper : fresh.superclass with
      | none => simp [hline]
      | some t => simp [hline, interfaceKey]
    · cases hsuper : fresh.superclass with
      | none => simp [hline]
      | some t => simp [hline]

/-- An annotation type is refused, unless it is taken for an interface and the
fresh unit is one. -/
theorem refuses_annotationType_iff (hf : f.IsRead .annotationType p h) :
    fresh.RefusesIncompatible f .annotationType p h ↔
      ¬ (¬ f.SignSeen ∧ fresh.kind = .interface ∧ fresh.superclass = none) := by
  have hne : ¬ fresh.CompatibleWith .annotationType p h := by
    rintro ⟨hkind, -⟩
    revert hkind
    cases fresh.kind <;> decide
  have hkind : (f.declared .annotationType).kind = f.seenKind .annotationType := rfl
  rw [RefusesIncompatible, imp_iff_right hne, exists_error_iff hf.ofSource?_text,
    not_iff_not, hkind]
  by_cases hseen : f.SignSeen
  · have hself : f.seenKind .annotationType = .annotationType := if_neg fun hboth => hboth.2 hseen
    rw [hself]
    cases fresh.kind <;> simp [TypeKind.declared, hseen]
  · have hself : f.seenKind .annotationType = .interface := if_pos ⟨rfl, hseen⟩
    rw [superclass_declared_interface hself, hself]
    cases fresh.kind <;> cases fresh.superclass <;> simp [TypeKind.declared, hseen]

/-- Any other type is refused unless the fresh unit is of its kind. -/
theorem refuses_other (hf : f.IsRead kind p h) (hkind : kind ≠ .annotationType)
    (hclass : ¬ (kind = .class ∧ fresh.kind = .class)) : fresh.RefusesIncompatible f kind p h := by
  intro hincompatible
  have hseen : (f.declared kind).kind = kind := f.seenKind_of_ne hkind
  refine (exists_error_iff hf.ofSource?_text).2 fun ⟨hsame, _⟩ =>
    hincompatible ⟨hseen.symm.trans hsame, ?_⟩
  intro hfresh
  rw [hseen, hfresh] at hsame
  exact absurd ⟨hsame, hfresh⟩ hclass

/-- **Incompatible declarations are refused**, with three exceptions: an
annotation type whose sign follows no letter counts as an interface; a class
counts as one that extends none, if not all types of its header stand on one
line; and classes count as the same whose names have the same last part. -/
theorem refusesIncompatible_iff (hf : f.IsRead kind p h) : fresh.RefusesIncompatible f kind p h ↔
    ¬ (kind = .annotationType ∧ ¬ f.SignSeen ∧ fresh.kind = .interface ∧ fresh.superclass = none) ∧
    (kind = .class → fresh.kind = .class → ∀ name ∈ h.superclass,
      if h.OnOneLine then ∀ t ∈ fresh.superclass, baseName (String.ofList name) = baseName t.shortName →
        p.Denotes (className name) t.qualifiedName.toList
      else fresh.superclass ≠ none) := by
  by_cases hclass : kind = .class ∧ fresh.kind = .class
  · obtain ⟨rfl, hfresh⟩ := hclass
    rw [refuses_class_iff hf hfresh]
    simp [hfresh]
  · have hvacuous : kind = .class → fresh.kind = .class → False :=
      fun hkind hfresh => hclass ⟨hkind, hfresh⟩
    by_cases hannotation : kind = .annotationType
    · subst hannotation
      rw [refuses_annotationType_iff hf]
      simp
    · refine iff_of_true (refuses_other hf hannotation hclass)
        ⟨fun hall => hannotation hall.1, fun hkind hfresh => ?_⟩
      exact (hvacuous hkind hfresh).elim

end

/-! ## Some files -/

/-- A class that extends a class of its package. -/
def baseFile : TypeFile where
  front := "package a;"
  modifiers := "\n\npublic "
  keyword := "class "
  name := "Orders"
  header := " extends Base "
  body := "\n\x7d\n"

def basePrologue : Prologue where
  package := some { lead := [], gap := [' '], path := ['a'] }

def baseHeader : TypeHeader where
  extended :=
    some { gap := [' '], space := [' '], list := "Base".toList, entries := ["Base".toList] }
  behind := [' ']

theorem isPrologue_base : basePrologue.IsPrologue where
  package := by
    rintro c ⟨⟩
    exact ⟨by decide, by decide, by decide, unreserved_of_not_isInfix (by decide)⟩
  imports := by simp [basePrologue]

theorem isRead_baseFile : baseFile.IsRead .class basePrologue baseHeader where
  front_settled := settled_of_inert (by decide)
  modifiers_settled := settled_of_inert (by decide)
  keyword_settled := settled_of_inert (by decide)
  name_settled := settled_of_inert (by decide)
  header_settled := settled_of_inert (by decide)
  idle := idle_of_tails (by decide) (by decide)
  separate := by decide
  keyword := ⟨"class".toList, [' '], by decide, .inl rfl, by decide, by decide⟩
  name := by decide
  header := by decide
  name_ends := by decide
  prologue := isPrologue_base
  prologue_code := by decide
  isHeader := by
    refine fun _ _ =>
      ⟨⟨.inl rfl, ?_, by simp [baseHeader], by simp [baseHeader], by decide⟩, by decide⟩
    rintro c ⟨⟩
    exact ⟨by decide, by decide, by decide,
      .single (Text.isEntry_of_inits (by decide) (by decide) (by decide) (by decide)),
      unmistaken_of_not_isInfix (by decide)⟩

/-- A class that extends another one than the fresh class is refused. -/
theorem refusesIncompatible_baseFile : ({ orders with superclass := some (.named "a.Tool") } : JavaUnit).RefusesIncompatible
    baseFile .class basePrologue baseHeader := by
  refine (refusesIncompatible_iff isRead_baseFile).2 ⟨by decide, fun _ _ name hname => ?_⟩
  obtain rfl : "Base".toList = name := by simpa [TypeHeader.superclass, baseHeader] using hname
  rw [if_pos (by decide)]
  rintro t ⟨⟩ hbase
  exact absurd hbase (by decide +kernel)

/-- An annotation type. -/
def annotationFile : TypeFile where
  front := "package a;"
  modifiers := "\n\npublic "
  keyword := "@interface "
  name := "Orders"
  header := " "
  body := "\n\x7d\n"

/-- A class that extends a class with two arguments, on two lines. -/
def wrappedFile : TypeFile :=
  { baseFile with header := " extends Base<String,\n        Integer> " }

def wrappedHeader : TypeHeader where
  extended := some
    { gap := [' ']
      space := [' ']
      list := "Base<String,\n        Integer>".toList
      entries := ["Base<String,\n        Integer>".toList] }
  behind := [' ']

theorem isRead_annotationFile :
    annotationFile.IsRead .annotationType basePrologue { behind := [' '] } where
  front_settled := settled_of_inert (by decide)
  modifiers_settled := settled_of_inert (by decide)
  keyword_settled := settled_of_inert (by decide)
  name_settled := settled_of_inert (by decide)
  header_settled := settled_of_inert (by decide)
  idle := idle_of_tails (by decide) (by decide)
  separate := by decide
  keyword := ⟨"@interface".toList, [' '], by decide, .inl rfl, by decide, by decide⟩
  name := by decide
  header := by decide
  name_ends := by decide
  prologue := isPrologue_base
  prologue_code := by decide
  isHeader := fun _ _ => ⟨⟨.inl rfl, by simp, by simp, by simp, by decide⟩, by decide⟩

theorem isRead_wrappedFile : wrappedFile.IsRead .class basePrologue wrappedHeader :=
  { isRead_baseFile with
    header_settled := settled_of_inert (by decide)
    header := by decide
    name_ends := by decide
    isHeader := by
      refine fun _ _ =>
        ⟨⟨.inl rfl, ?_, by simp [wrappedHeader], by simp [wrappedHeader], by decide⟩, by decide⟩
      rintro c ⟨⟩
      exact ⟨by decide, by decide, by decide,
        .single (Text.isEntry_of_inits (by decide) (by decide) (by decide) (by decide)),
        unmistaken_of_not_isInfix (by decide)⟩ }

/-- **An annotation type is replaced by an interface, and a class with a
superclass by one without**: neither is refused. -/
theorem not_refusesIncompatible :
    (annotationFile.IsRead .annotationType basePrologue { behind := [' '] } ∧
      ¬ ({ kind := .interface, type := .named "a.Orders" } : JavaUnit).RefusesIncompatible
        annotationFile .annotationType
        basePrologue { behind := [' '] }) ∧
    (wrappedFile.IsRead .class basePrologue wrappedHeader ∧
      ¬ orders.RefusesIncompatible wrappedFile .class basePrologue wrappedHeader) := by
  refine ⟨⟨isRead_annotationFile, fun hrefuses => ?_⟩, isRead_wrappedFile, fun hrefuses => ?_⟩
  · obtain ⟨reason, hreason⟩ := hrefuses fun ⟨hkind, _⟩ => absurd hkind (by decide)
    have hok : (JavaUnit.mergeInto { kind := .interface, type := .named "a.Orders" }
      annotationFile.text).isOk = true := by
      decide +kernel
    rw [hreason] at hok
    exact Bool.noConfusion hok
  · obtain ⟨reason, hreason⟩ := hrefuses fun ⟨_, hsame⟩ => by
      rcases hsame rfl with ⟨hnone, -⟩ | ⟨name, t, -, hsome, -⟩
      · exact absurd hnone (by decide)
      · exact absurd hsome (by simp [orders])
    have hok : (orders.mergeInto wrappedFile.text).isOk = true := by
      decide +kernel
    rw [hreason] at hok
    exact Bool.noConfusion hok

end JavaUnit

end TableMapper
