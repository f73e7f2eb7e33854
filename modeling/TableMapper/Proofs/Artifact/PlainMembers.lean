import TableMapper.Artifact.MapperInterface
import TableMapper.Artifact.Record
import TableMapper.Proofs.Merge.WrittenMember
import TableMapper.Proofs.Unit.Names

/-!
# The members of the generated classes

The fields, accessors, constructors and declarations that generators write
are made of the names and types of properties. **If these are plain, every
such member is plain** (`BeanProperty.IsPlain.field`, `getter`, `setter`),
so it is read as the one generated member it was written as.
-/

namespace TableMapper

open Source

/-! ## Names of accessors -/

/-- The upper-case form of a character of an identifier is one. -/
theorem isNameChar_upper {c d : Char} (h : isNameChar c = true) (hd : d ∈ Text.upper c) :
    isNameChar d = true := by
  have htable : ∀ n < 123, n = 36 ∨ 48 ≤ n ∧ n ≤ 57 ∨ 65 ≤ n ∧ n ≤ 90 ∨ n = 95 ∨ 97 ≤ n ∧ n ≤ 122 →
      (Text.upper (Char.ofNat n)).all isNameChar = true := by
    decide +kernel
  have hn := toNat_of_isNameChar h
  have hupper := htable c.toNat (by omega) hn
  rw [Char.ofNat_toNat] at hupper
  exact List.all_eq_true.1 hupper d hd

namespace Naming

/-- **What holds of the characters of a property holds of those of its
accessors**, if it stays true in upper case. -/
theorem forall_mem_accessorSuffix {P : Char → Prop} {property : String}
    (h : ∀ c ∈ property.toList, P c)
    (hupper : ∀ c, P c → ∀ d ∈ Text.upper c, P d) :
    ∀ c ∈ (accessorSuffix property).toList, P c := by
  rw [accessorSuffix]
  cases hproperty : property.toList with
  | nil => exact fun c hc => absurd hc List.not_mem_nil
  | cons first rest =>
    rw [hproperty] at h
    obtain ⟨hfirst, hrest⟩ := List.forall_mem_cons.1 h
    cases rest with
    | nil =>
      simp only [String.toList_ofList]
      exact hupper first hfirst
    | cons second rest =>
      simp only
      split
      · rwa [hproperty]
      · rw [String.toList_ofList, List.forall_mem_append]
        exact ⟨hupper first hfirst, hrest⟩

/-- The suffix of an accessor has the characters of an identifier. -/
theorem isNameChar_accessorSuffix {property : String}
    (h : ∀ c ∈ property.toList, isNameChar c = true) :
    ∀ c ∈ (accessorSuffix property).toList, isNameChar c = true :=
  forall_mem_accessorSuffix h fun _ hc _ hd => isNameChar_upper hc hd

theorem isNameChar_getter {property : String} (h : ∀ c ∈ property.toList, isNameChar c = true)
    (primitiveBoolean : Bool) : ∀ c ∈ (getter property primitiveBoolean).toList,
    isNameChar c = true := by
  rw [getter, String.toList_append, List.forall_mem_append]
  refine ⟨?_, isNameChar_accessorSuffix h⟩
  cases primitiveBoolean <;> decide

theorem isNameChar_setter {property : String} (h : ∀ c ∈ property.toList, isNameChar c = true) :
    ∀ c ∈ (setter property).toList, isNameChar c = true := by
  rw [setter, String.toList_append, List.forall_mem_append]
  exact ⟨by decide, isNameChar_accessorSuffix h⟩

end Naming

/-! ## Types -/

namespace JavaType

theorem isPlain_listOf {name : String} (h : IsTypeName name.toList) :
    (listOf (named name)).IsPlain :=
  ⟨name, h, .inr rfl⟩

end JavaType

/-! ## Properties -/

/-- **A property with a plain name and type.** -/
structure BeanProperty.IsPlain (p : BeanProperty) : Prop where
  name : IsIdentifier p.name.toList
  type : p.type.IsPlain
  doc : IsJavadoc p.doc

/-- An assignment to a field is one statement. -/
theorem BeanProperty.isQuiet_assignment {name : String} (h : IsIdentifier name.toList) :
    ∀ c ∈ (assignment name).toList, isQuiet c = true ∨ c = ';' := by
  have hname : ∀ c ∈ name.toList, isQuiet c = true ∨ c = ';' :=
    fun c hc => .inl (isQuiet_identifier h c hc)
  simp only [assignment, String.toList_append, List.forall_mem_append]
  exact ⟨⟨⟨⟨by decide, hname⟩, by decide⟩, hname⟩, by decide⟩

namespace BeanProperty.IsPlain

variable {p : BeanProperty}

theorem field (h : p.IsPlain) : p.field.IsPlain where
  name := h.name
  type := h.type
  unmarked := rfl
  initializer := by simp [BeanProperty.field]
  javadoc := isJavadoc_taggedJavadoc h.doc
  tagged := mem_taggedJavadoc _

theorem getter (h : p.IsPlain) : p.getter.IsPlain where
  name := by
    rintro t ⟨⟩
    exact ⟨h.type, Naming.isNameChar_getter h.name.isNameChar _⟩
  unmarked := rfl
  parameters := fun _ hparameter => absurd hparameter List.not_mem_nil
  body := by
    rintro lines ⟨⟩
    simp only [List.forall_mem_singleton, String.toList_append, List.forall_mem_append]
    exact ⟨⟨by decide, fun c hc => .inl (isQuiet_identifier h.name c hc)⟩, by decide⟩
  javadoc := isJavadoc_taggedJavadoc isJavadoc_nil
  tagged := mem_taggedJavadoc _

theorem setter (h : p.IsPlain) : p.setter.IsPlain where
  name := by
    rintro t ⟨⟩
    exact ⟨JavaType.isPlain_of_isPackageName (by decide),
      Naming.isNameChar_setter h.name.isNameChar⟩
  unmarked := rfl
  parameters := List.forall_mem_singleton.2 ⟨rfl, h.type, h.name⟩
  body := by
    rintro lines ⟨⟩
    exact List.forall_mem_singleton.2 (BeanProperty.isQuiet_assignment h.name)
  javadoc := isJavadoc_taggedJavadoc isJavadoc_nil
  tagged := mem_taggedJavadoc _

end BeanProperty.IsPlain

/-! ## Members of records -/

namespace Record

theorem isPlain_versionField : versionField.IsPlain where
  name := by decide
  type := JavaType.isPlain_of_isPackageName (by decide)
  unmarked := rfl
  initializer := by
    rintro value ⟨⟩
    decide
  javadoc := isJavadoc_taggedJavadoc isJavadoc_nil
  tagged := mem_taggedJavadoc _

theorem isPlain_fullConstructor (unit : JavaUnit) {properties : List BeanProperty}
    (h : ∀ p ∈ properties, p.IsPlain) :
    (fullConstructor unit properties).IsPlain where
  name := fun t ht => absurd ht (by simp [fullConstructor])
  unmarked := rfl
  parameters := by
    intro parameter hparameter
    obtain ⟨p, hp, rfl⟩ := List.mem_map.1 hparameter
    have hplain := h p (List.mem_of_mem_filter hp)
    exact ⟨rfl, hplain.type, hplain.name⟩
  body := by
    rintro lines ⟨⟩
    rw [List.forall_mem_append]
    constructor
    · split
      · exact List.forall_mem_singleton.2 (by decide)
      · exact List.forall_mem_nil _
    · intro line hline
      obtain ⟨p, hp, rfl⟩ := List.mem_map.1 hline
      exact BeanProperty.isQuiet_assignment (h p (List.mem_of_mem_filter hp)).name
  javadoc := isJavadoc_taggedJavadoc isJavadoc_nil
  tagged := mem_taggedJavadoc _

theorem isPlain_emptyConstructor (unit : JavaUnit) : (emptyConstructor unit).IsPlain where
  name := fun t ht => absurd ht (by simp [emptyConstructor])
  unmarked := rfl
  parameters := fun _ hparameter => absurd hparameter List.not_mem_nil
  body := by
    rintro lines ⟨⟩
    exact List.forall_mem_singleton.2 (by decide)
  javadoc := isJavadoc_taggedJavadoc isJavadoc_nil
  tagged := mem_taggedJavadoc _

end Record

/-! ## Members of mapper interfaces -/

/-- **What holds of the methods of a mapper interface** holds of the
declarations of five statements. -/
theorem MapperInterface.forall_mem_methods {table : TableModel} {P : Method → Prop}
    (hinsert : P (declaration "insert" (.named "int") "record" table.names.recordType))
    (hbatchInsert : P (declaration "batchInsert" (.named "int") "list"
      (.listOf table.names.recordType)))
    (hcount : P (declaration "count" (.named "long") "qc" table.names.queryType))
    (hgetByQc : P (declaration "getByQc" table.names.recordType "qc" table.names.queryType))
    (hlist : P (declaration "list" (.listOf table.names.recordType) "qc" table.names.queryType)) :
    ∀ entry ∈ methods table, P entry.2 := by
  have hif : ∀ {condition : Bool} {entry : FragmentId × Method}, P entry.2 →
      ∀ found ∈ (if condition then [entry] else []), P found.2 := by
    intro condition entry hentry found hfound
    split at hfound
    · rwa [List.mem_singleton.1 hfound]
    · exact absurd hfound List.not_mem_nil
  rw [methods]
  simp only [List.forall_mem_append]
  exact ⟨⟨⟨⟨hif hinsert, hif hbatchInsert⟩, hif hcount⟩, hif hgetByQc⟩, hif hlist⟩

theorem MapperInterface.isPlain_declaration {name parameter : String} {returnType type : JavaType}
    (hname : IsIdentifier name.toList) (hreturn : returnType.IsPlain)
    (hparameter : IsIdentifier parameter.toList)
    (htype : type.IsPlain) : (declaration name returnType parameter type).IsPlain where
  name := by
    rintro t ⟨⟩
    exact ⟨hreturn, hname.isNameChar⟩
  unmarked := rfl
  parameters := List.forall_mem_singleton.2 ⟨rfl, htype, hparameter⟩
  body := fun lines hlines => absurd hlines (by simp [declaration, Method.declaration])
  javadoc := isJavadoc_taggedJavadoc isJavadoc_nil
  tagged := mem_taggedJavadoc _

end TableMapper
