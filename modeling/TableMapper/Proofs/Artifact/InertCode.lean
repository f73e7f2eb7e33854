import TableMapper.Proofs.Artifact.WellFormedUnits
import TableMapper.Proofs.Unit.SealedComments

/-!
# The code of generated units begins no comments

Names of properties, types and packages are written into the code of a unit
as they are. If none of them holds a quote or a slash, the code of the unit
begins neither comments nor literals, and only its documentation can break
the comments of the file. **Every step of a generator adds code made of such
names and documentation that it is told** (`JavaUnit.Documents`), whichever of
the plugins the configuration can name are at work.
-/

namespace TableMapper

open Source

/-! ## Names of accessors -/

/-- A character that stays, or moves by a shift. -/
theorem Text.Shift.apply_cases (shifts : List Shift) (n : Nat) :
    Shift.apply shifts n = n ∨
      ∃ shift ∈ shifts, shift.span.first ≤ n ∧ Shift.apply shifts n = (n + shift.offset).toNat := by
  induction shifts with
  | nil => exact .inl rfl
  | cons shift rest ih =>
    rw [Shift.apply]
    split
    · exact .inl rfl
    · split
      next hlt _ => exact .inr ⟨shift, List.mem_cons_self, Nat.le_of_not_lt hlt, rfl⟩
      · exact ih.imp_right fun ⟨other, hother, hcase⟩ =>
          ⟨other, List.mem_cons_of_mem shift hother, hcase⟩

theorem isInert_of_toNat {c : Char} (h : c.toNat = 0 ∨ 47 < c.toNat) : isInert c = true := by
  have hne : ∀ d : Char, d.toNat ≠ 0 → d.toNat ≤ 47 → c ≠ d := by
    rintro d hzero hd rfl
    omega
  simp [isInert, hne '"' (by decide) (by decide), hne '\x27' (by decide) (by decide),
    hne '/' (by decide) (by decide)]

theorem isInert_ofNat {n : Nat} (h : 47 < n) : isInert (Char.ofNat n) = true := by
  refine isInert_of_toNat ?_
  by_cases hvalid : n.isValidChar
  · rw [Char.ofNat, dif_pos hvalid]
    exact .inr h
  · rw [Char.ofNat, dif_neg hvalid]
    exact .inl rfl

/-- **The upper-case form of a character is neither a quote nor a slash**
unless the character is. -/
theorem isInert_upper {c d : Char} (h : isInert c = true) (hd : d ∈ Text.upper c) :
    isInert d = true := by
  have hexpansions : ∀ entry ∈ Text.upperExpansions, ∀ n ∈ entry.2, 47 < n := by decide +kernel
  have hshifts : ∀ shift ∈ Text.upperShifts, 47 < (shift.span.first + shift.offset : Int) := by
    decide +kernel
  rw [Text.upper, Text.mapCase] at hd
  split at hd
  next image himage =>
    obtain ⟨n, hn, rfl⟩ := List.mem_map.1 hd
    obtain ⟨before, after, htable, -⟩ := List.lookup_eq_some_iff.1 himage
    exact isInert_ofNat (hexpansions _
      (htable ▸ List.mem_append_right before List.mem_cons_self) n hn)
  · rw [List.mem_singleton.1 hd]
    rcases Text.Shift.apply_cases Text.upperShifts
      c.toNat with hstay | ⟨shift, hshift, hfirst, hmove⟩
    · rwa [hstay, Char.ofNat_toNat]
    · have hlow := hshifts shift hshift
      rw [hmove]
      exact isInert_ofNat (by omega)

namespace Naming

theorem isInertText_accessorSuffix {property : String} (h : IsInertText property.toList) :
    IsInertText (accessorSuffix property).toList :=
  forall_mem_accessorSuffix h fun _ hc _ hd => isInert_upper hc hd

end Naming

/-! ## Types -/

namespace JavaType

/-- **A type whose name holds no quotes and slashes**, as far as it is
written. -/
structure IsInert (t : JavaType) : Prop where
  package : ∀ name ∈ t.packageName?, IsInertText name.toList
  shortName : IsInertText t.shortName.toList
  imports : ∀ name ∈ t.imports, IsInertText name.toList

theorem elementName_subset (name : String) : (elementName name).toList ⊆ name.toList := by
  intro c hc
  rw [elementName, String.toList_ofList, List.mem_reverse] at hc
  obtain ⟨brackets, hcut, -⟩ := exists_dropBrackets name.toList.reverse
  exact List.mem_reverse.1 (hcut ▸ List.mem_append_right brackets hc)

/-- What a type without arguments imports is its name, without brackets. -/
theorem eq_of_mem_imports_named {name imported : String} (h : imported ∈ (named name).imports) :
    imported = elementName name := by
  have hown : imported ∈ ownImport (named name) := by
    rcases List.mem_append.1 h with hmem | hmem
    · exact hmem
    · exact absurd hmem List.not_mem_nil
  rw [ownImport] at hown
  split at hown
  · exact absurd hown List.not_mem_nil
  · split at hown
    · exact List.mem_singleton.1 hown
    · exact absurd hown List.not_mem_nil

/-- A list imports itself and what its items import. -/
theorem mem_imports_listOf {t : JavaType} {imported : String} (h : imported ∈ (listOf t).imports) :
    imported ∈ ownImport (named "java.util.List") ∨ imported ∈ t.imports := by
  rcases List.mem_append.1 h with hmem | hmem
  · exact .inl hmem
  · rw [importsOf, importsOf, List.append_nil] at hmem
    exact .inr hmem

/-- The parts of a name hold nothing that the name does not hold. -/
theorem splitLast_subset (c : Char) (cs : List Char) :
    (∀ front ∈ (Text.splitLast c cs).1, front ⊆ cs) ∧ (Text.splitLast c cs).2 ⊆ cs := by
  have hlast : (cs.reverse.takeWhile (· != c)).reverse ⊆ cs := fun d hd =>
    List.mem_reverse.1 ((List.takeWhile_prefix _).subset (List.mem_reverse.1 hd))
  rw [Text.splitLast]
  split
  · exact ⟨fun front hfront => absurd hfront (by simp), hlast⟩
  next d before hbefore =>
    refine ⟨fun front hfront e he => ?_, hlast⟩
    obtain rfl := Option.some.inj hfront
    have hmem : e ∈ cs.reverse.dropWhile (· != c) :=
      hbefore ▸ List.mem_cons_of_mem d (List.mem_reverse.1 he)
    exact List.mem_reverse.1 ((List.dropWhile_suffix _).subset hmem)

theorem splitName_subset (name : String) :
    (∀ package ∈ (splitName name).1, package.toList ⊆ name.toList) ∧
    (splitName name).2.toList ⊆ name.toList := by
  obtain ⟨hfront, hlast⟩ := splitLast_subset '.' name.toList
  constructor
  · intro package hpackage
    obtain ⟨front, hmem, rfl⟩ := Option.map_eq_some_iff.1 hpackage
    rw [String.toList_ofList]
    exact hfront front hmem
  · rw [splitName, String.toList_ofList]
    exact hlast

theorem isInertText_splitName {name : String} (h : IsInertText name.toList) :
    (∀ package ∈ (splitName name).1, IsInertText package.toList) ∧
    IsInertText (splitName name).2.toList :=
  ⟨fun package hpackage c hc => h c ((splitName_subset name).1 package hpackage hc),
    fun c hc => h c ((splitName_subset name).2 hc)⟩

theorem isInert_named {name : String} (h : IsInertText name.toList) : (named name).IsInert where
  package := (isInertText_splitName h).1
  shortName := (isInertText_splitName h).2
  imports := by
    intro imported himported c hc
    rw [eq_of_mem_imports_named himported] at hc
    exact h c (elementName_subset name hc)

theorem IsInert.listOf {t : JavaType} (h : t.IsInert) : (listOf t).IsInert where
  package := (isInertText_splitName (show IsInertText "java.util.List".toList by decide)).1
  shortName := by
    have htext : (JavaType.listOf t).shortName = "List<" ++ t.shortName ++ ">" := by
      show "List" ++ "<" ++ ", ".intercalate [t.shortName] ++ ">" = _
      simp
    rw [htext, String.toList_append, String.toList_append, isInertText_append, isInertText_append]
    exact ⟨⟨by decide, h.shortName⟩, by decide⟩
  imports := by
    intro name hname
    rcases mem_imports_listOf hname with hlist | hitem
    · exact (show ∀ name ∈ ownImport (named "java.util.List"),
        IsInertText name.toList by decide) name hlist
    · exact h.imports name hitem

end JavaType

/-! ## Members -/

/-- A field of which all but the documentation is written without quotes and
slashes. -/
structure Field.HasInertCode (f : Field) : Prop where
  name : IsInertText f.name.toList
  type : f.type.IsInert
  unmarked : f.annotations = []
  initializer : ∀ value ∈ f.initializer, IsInertText value.toList

/-- A method of which all but the documentation is written without quotes and
slashes. -/
structure Method.HasInertCode (m : Method) : Prop where
  name : IsInertText m.name.toList
  returnType : ∀ t ∈ m.returnType, t.IsInert
  unmarked : m.annotations = []
  parameters : ∀ p ∈ m.parameters, p.annotations = [] ∧ p.type.IsInert ∧ IsInertText p.name.toList
  body : ∀ lines ∈ m.body, ∀ line ∈ lines, IsInertText line.toList

section

variable {f : Field} {m : Method} {t : JavaType} {p : BeanProperty} {texts : List String}

theorem isInertText_visibility (v : Visibility) : IsInertText v.keyword.toList := by
  cases v <;> decide

theorem isInertText_join (h : ∀ text ∈ texts, IsInertText text.toList) :
    IsInertText (String.join texts).toList := by
  rw [String.toList_join]
  intro c hc
  obtain ⟨text, htext, hc⟩ := List.mem_flatMap.1 hc
  exact h text htext c hc

theorem isInertText_intercalate {separator : String} (hseparator : IsInertText separator.toList)
    (h : ∀ text ∈ texts, IsInertText text.toList) :
    IsInertText (separator.intercalate texts).toList := by
  rw [String.toList_intercalate]
  intro c hc
  rcases JavaUnit.mem_intercalate.1 hc with ⟨part, hpart, hc⟩ | ⟨hc, -⟩
  · obtain ⟨text, htext, rfl⟩ := List.mem_map.1 hpart
    exact h text htext c hc
  · exact hseparator c hc

theorem Field.HasInertCode.render (h : f.HasInertCode) :
    IsInertText { f with javadoc := [] }.render.toList := by
  simp only [Field.render, h.unmarked, String.toList_append, isInertText_append]
  refine ⟨⟨⟨⟨⟨⟨⟨⟨⟨⟨?_, ?_⟩, ?_⟩, isInertText_visibility _⟩, ?_⟩, ?_⟩, h.type.shortName⟩, ?_⟩,
    h.name⟩, ?_⟩, ?_⟩
  · exact isInertText_nil
  · exact isInertText_nil
  · decide
  · split <;> decide
  · split <;> decide
  · decide
  · split
    next value hinitializer =>
      rw [String.toList_append, isInertText_append]
      exact ⟨by decide, h.initializer value hinitializer⟩
    · exact isInertText_nil
  · decide

theorem Method.HasInertCode.render (h : m.HasInertCode) (howner : IsInertText t.shortName.toList) :
    IsInertText ({ m with javadoc := [] }.render t).toList := by
  have hparameters : IsInertText (", ".intercalate (m.parameters.map (·.render))).toList := by
    refine isInertText_intercalate (by decide) fun text htext => ?_
    obtain ⟨p, hp, rfl⟩ := List.mem_map.1 htext
    obtain ⟨hmarks, htype, hname⟩ := h.parameters p hp
    simp only [Parameter.render, hmarks, String.toList_append, isInertText_append]
    exact ⟨⟨⟨isInertText_nil, htype.shortName⟩, by decide⟩, hname⟩
  have hbody : IsInertText (renderBody m.body).toList := by
    cases hlines : m.body with
    | none => decide
    | some lines =>
      simp only [renderBody, String.toList_append, isInertText_append]
      refine ⟨⟨⟨by decide, isInertText_join fun text htext => ?_⟩, by decide⟩, by decide⟩
      obtain ⟨line, hline, rfl⟩ := List.mem_map.1 htext
      rw [bodyLine]
      split
      · decide
      · simp only [String.toList_append, isInertText_append]
        exact ⟨⟨⟨by decide, by decide⟩, h.body lines hlines line hline⟩, by decide⟩
  simp only [Method.render, h.unmarked, String.toList_append, isInertText_append]
  refine ⟨⟨⟨⟨⟨⟨⟨⟨⟨?_, ?_⟩, ?_⟩, isInertText_visibility _⟩, ?_⟩, ?_⟩, ?_⟩, hparameters⟩, ?_⟩, hbody⟩
  · exact isInertText_nil
  · exact isInertText_nil
  · decide
  · split <;> decide
  · split
    next result hreturn =>
      simp only [String.toList_append, isInertText_append]
      exact ⟨⟨(h.returnType result hreturn).shortName, by decide⟩, h.name⟩
    · exact howner
  · decide
  · decide

end

/-! ## Members of beans -/

namespace BeanProperty

/-- A property whose name and type hold no quotes and slashes. -/
structure IsInert (p : BeanProperty) : Prop where
  name : IsInertText p.name.toList
  type : p.type.IsInert

variable {p : BeanProperty}

theorem isInertText_assignment {name : String} (h : IsInertText name.toList) :
    IsInertText (assignment name).toList := by
  simp only [assignment, String.toList_append, isInertText_append]
  exact ⟨⟨⟨⟨by decide, h⟩, by decide⟩, h⟩, by decide⟩

theorem IsInert.field (h : p.IsInert) : p.field.HasInertCode where
  name := h.name
  type := h.type
  unmarked := rfl
  initializer := fun _ hvalue => absurd hvalue (by simp [BeanProperty.field])

theorem IsInert.getter (h : p.IsInert) : p.getter.HasInertCode where
  name := by
    rw [BeanProperty.getter, Naming.getter, String.toList_append, isInertText_append]
    refine ⟨?_, Naming.isInertText_accessorSuffix h.name⟩
    split <;> decide
  returnType := by
    rintro t ⟨⟩
    exact h.type
  unmarked := rfl
  parameters := List.forall_mem_nil _
  body := by
    rintro lines ⟨⟩
    simp only [List.forall_mem_singleton, String.toList_append, isInertText_append]
    exact ⟨⟨by decide, h.name⟩, by decide⟩

theorem IsInert.setter (h : p.IsInert) : p.setter.HasInertCode where
  name := by
    show IsInertText ("set" ++ Naming.accessorSuffix p.name).toList
    rw [String.toList_append, isInertText_append]
    exact ⟨by decide, Naming.isInertText_accessorSuffix h.name⟩
  returnType := by
    rintro t ⟨⟩
    exact JavaType.isInert_named (by decide)
  unmarked := rfl
  parameters := List.forall_mem_singleton.2 ⟨rfl, h.type, h.name⟩
  body := by
    rintro lines ⟨⟩
    exact List.forall_mem_singleton.2 (isInertText_assignment h.name)

end BeanProperty

/-! ## Units -/

namespace JavaUnit

/-- **A unit of which all but the documentation is written without quotes and
slashes**, and that has no members taken over. -/
structure HasInertCode (u : JavaUnit) : Prop where
  type : u.type.IsInert
  superclass : ∀ t ∈ u.superclass, t.IsInert
  superInterfaces : ∀ t ∈ u.superInterfaces, t.IsInert
  imports : ∀ name ∈ u.imports, IsInertText name.toList
  annotations : ∀ mark ∈ u.annotations, IsInertText mark.toList
  fields : ∀ f ∈ u.fields, f.HasInertCode
  methods : ∀ m ∈ u.methods, m.HasInertCode
  retained : u.retained = []

/-- **The documentation of a unit**: that of its type and those of its
fields, in order. Methods are documented by the retention tag alone, and the
code is inert. -/
structure Documents (u : JavaUnit) (lines : List String) (fields : List (List String)) : Prop where
  code : u.HasInertCode
  javadoc : u.javadoc = lines
  fields : u.fields.map (·.javadoc) = fields
  methods : ∀ m ∈ u.methods, m.javadoc = taggedJavadoc []

section

variable {u : JavaUnit} {t : JavaType} {lines : List String} {fields : List (List String)}

theorem HasInertCode.renderPrelude (h : u.HasInertCode) : IsInertText u.renderPrelude.toList := by
  rw [JavaUnit.renderPrelude, String.toList_append, isInertText_append]
  constructor
  · split
    next package hpackage =>
      simp only [String.toList_append, isInertText_append]
      exact ⟨⟨by decide, h.type.package package hpackage⟩, by decide⟩
    · exact isInertText_nil
  · split
    · exact isInertText_nil
    · rw [String.toList_append, isInertText_append]
      refine ⟨isInertText_join fun text htext => ?_, by decide⟩
      obtain ⟨name, hname, rfl⟩ := List.mem_map.1 htext
      simp only [String.toList_append, isInertText_append]
      exact ⟨⟨by decide, h.imports name hname⟩, by decide⟩

theorem HasInertCode.renderHeader (h : u.HasInertCode) : IsInertText u.renderHeader.toList := by
  have hinterfaces : IsInertText
      (", ".intercalate (u.superInterfaces.map (·.shortName))).toList := by
    refine isInertText_intercalate (by decide) fun text htext => ?_
    obtain ⟨t, ht, rfl⟩ := List.mem_map.1 htext
    exact (h.superInterfaces t ht).shortName
  simp only [JavaUnit.renderHeader, String.toList_append, isInertText_append]
  refine ⟨⟨⟨⟨⟨⟨isInertText_visibility _, ?_⟩, by decide⟩, h.type.shortName⟩, ?_⟩, ?_⟩, by decide⟩
  · cases u.kind <;> decide
  · split
    next t hsuperclass =>
      rw [String.toList_append, isInertText_append]
      exact ⟨by decide, (h.superclass t hsuperclass).shortName⟩
    · exact isInertText_nil
  · split
    · exact isInertText_nil
    · rw [String.toList_append, isInertText_append]
      refine ⟨?_, hinterfaces⟩
      cases u.kind <;> decide

/-- **The code between the comments of such a unit is inert.** -/
theorem HasInertCode.isInertText (h : u.HasInertCode) :
    ∀ text, .code text ∈ u.pieces → IsInertText text.toList := by
  intro text htext
  rcases List.mem_append.1 htext with htext | htext
  · rcases (by
      simpa using htext : text = u.renderPrelude ∨
        text = renderAnnotations "" u.annotations ++ u.renderHeader)
      with rfl | rfl
    · exact h.renderPrelude
    · rw [String.toList_append, isInertText_append]
      refine ⟨isInertText_join fun text htext => ?_, h.renderHeader⟩
      obtain ⟨mark, hmark, rfl⟩ := List.mem_map.1 htext
      simp only [String.toList_append, isInertText_append]
      exact ⟨⟨isInertText_nil, h.annotations mark hmark⟩, by decide⟩
  · rcases List.mem_append.1 htext with htext | htext
    · rcases mem_intercalate.1 htext with ⟨part, hpart, htext⟩ | ⟨htext, -⟩
      · rw [memberPieces, h.retained, List.map_nil, List.append_nil] at hpart
        rcases List.mem_append.1 hpart with hpart | hpart
        · obtain ⟨f, hf, rfl⟩ := List.mem_map.1 hpart
          obtain rfl : text = { f with javadoc := [] }.render := by simpa using htext
          exact (h.fields f hf).render
        · obtain ⟨m, hm, rfl⟩ := List.mem_map.1 hpart
          obtain rfl : text = { m with javadoc := [] }.render u.type := by simpa using htext
          exact (h.methods m hm).render h.type.shortName
      · obtain rfl : text = "\n" := by simpa using htext
        decide
    · obtain rfl : text = "\x7d\n" := by simpa using htext
      decide

/-- **The comments of a documented unit are whole exactly if neither the
documentation of the type nor that of a field ends a comment.** -/
theorem Documents.sealsComments_iff (h : u.Documents lines fields) :
    u.SealsComments ↔ IsJavadoc lines ∧ ∀ doc ∈ fields, IsJavadoc doc := by
  have htag : IsJavadoc (taggedJavadoc []) := isJavadoc_taggedJavadoc isJavadoc_nil
  rw [JavaUnit.sealsComments_iff h.code.isInertText, h.javadoc, ← h.fields, List.forall_mem_map]
  refine and_congr_right fun _ => and_iff_left fun m hm => ?_
  rw [h.methods m hm]
  exact htag

/-! ## Building units -/

theorem documents_bare {kind : TypeKind} (ht : t.IsInert) :
    ({ kind, type := t, javadoc := lines } : JavaUnit).Documents lines [] where
  code := {
    type := ht
    superclass := fun _ h => absurd h (by simp)
    superInterfaces := List.forall_mem_nil _
    imports := List.forall_mem_nil _
    annotations := List.forall_mem_nil _
    fields := List.forall_mem_nil _
    methods := List.forall_mem_nil _
    retained := rfl }
  javadoc := rfl
  fields := rfl
  methods := List.forall_mem_nil _

theorem Documents.addImport (h : u.Documents lines fields) (ht : t.IsInert) :
    (u.addImport t).Documents lines fields :=
  { h with
    code := { h.code with
      imports := by
        intro name hname
        rcases Text.mem_foldl_insertSorted.1 hname with hname | hname
        · exact ht.imports name (List.mem_of_mem_filter hname)
        · exact h.code.imports name hname } }

theorem Documents.addImports {ts : List JavaType} (h : u.Documents lines fields)
    (hts : ∀ t ∈ ts, t.IsInert) :
    (u.addImports ts).Documents lines fields := by
  induction ts generalizing u with
  | nil => exact h
  | cons t ts ih =>
    exact ih (h.addImport (hts t List.mem_cons_self)) fun other hother =>
      hts other (List.mem_cons_of_mem t hother)

theorem Documents.extending (h : u.Documents lines fields) (ht : t.IsInert) :
    (u.extending t).Documents lines fields :=
  { h.addImport ht with
    code := { (h.addImport ht).code with
      superclass := by
        rintro _ ⟨⟩
        exact ht } }

theorem Documents.addSuperInterface (h : u.Documents lines fields) (ht : t.IsInert) :
    (u.addSuperInterface t).Documents lines fields := by
  rw [JavaUnit.addSuperInterface]
  split
  · exact h
  · exact { h.addImport ht with
      code := { (h.addImport ht).code with
        superInterfaces :=
          List.forall_mem_append.2 ⟨h.code.superInterfaces, List.forall_mem_singleton.2 ht⟩ } }

theorem Documents.annotate {mark : String} (h : u.Documents lines fields)
    (hmark : IsInertText mark.toList) :
    (u.annotate mark).Documents lines fields := by
  rw [JavaUnit.annotate]
  split
  · exact h
  · exact { h with
      code := { h.code with
        annotations := List.forall_mem_append.2
          ⟨h.code.annotations, List.forall_mem_singleton.2 hmark⟩ } }

theorem Documents.withField {f : Field} (h : u.Documents lines fields) (hf : f.HasInertCode) :
    ({ u with fields := u.fields ++ [f] } : JavaUnit).Documents lines (fields ++ [f.javadoc]) :=
  { h with
    code := { h.code with
      fields := List.forall_mem_append.2 ⟨h.code.fields, List.forall_mem_singleton.2 hf⟩ }
    fields := by rw [List.map_append, h.fields, List.map_singleton] }

theorem Documents.addField {f : Field} (h : u.Documents lines fields) (hf : f.HasInertCode) :
    (u.addField f).Documents lines (fields ++ [f.javadoc]) :=
  (h.addImport hf.type).withField hf

theorem Documents.addMethod {m : Method} (h : u.Documents lines fields) (hm : m.HasInertCode)
    (hdoc : m.javadoc = taggedJavadoc []) : (u.addMethod m).Documents lines fields :=
  { h with
    code := { h.code with
      methods := List.forall_mem_append.2 ⟨h.code.methods, List.forall_mem_singleton.2 hm⟩ }
    methods := List.forall_mem_append.2 ⟨h.methods, List.forall_mem_singleton.2 hdoc⟩ }

end

end JavaUnit

end TableMapper
