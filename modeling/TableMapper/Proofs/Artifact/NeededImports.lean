import TableMapper.Proofs.Artifact.Agreement
import TableMapper.Proofs.Artifact.WellFormedUnits

/-!
# The imports of the generated classes

Types are imported wherever a member that mentions them is added: fields and
accessors each import their own, a superclass and an interface theirs, and a
plugin that annotates a class the type of the annotation. Constructors import
nothing, since their parameters have the types of fields, and a vetoed
accessor takes its import with it. **After every step the imports are those
that the types of the class need** (`JavaUnit.ImportsExactly.step`), and so
they are in the end, whichever of the plugins the configuration can name are
at work: **nothing is missing and nothing superfluous**
(`importsExactly_generateTable`).
-/

namespace TableMapper

/-! ## What a type needs -/

namespace JavaType

/-- **A type stands in another** as itself or, at any depth, as an argument. -/
inductive StandsIn (t : JavaType) : JavaType → Prop
  | here : StandsIn t t
  | argument {name : String} {arguments : List JavaType} {s : JavaType}
      (hs : s ∈ arguments) (h : StandsIn t s) :
    StandsIn t (.mk name arguments)

/-- **A type that has to be imported** in a package: it has a package of its
own, which is another one and not that of the language. -/
structure MustBeImported (own : Option String) (t : JavaType) : Prop where
  package : ∃ package, t.packageName? = some package ∧ package ≠ "java.lang" ∧ own ≠ some package
  reference : t.isPrimitive = false

variable {t : JavaType} {ts : List JavaType} {name : String}

theorem mem_importsOf : name ∈ importsOf ts ↔ ∃ t ∈ ts, name ∈ t.imports := by
  induction ts with
  | nil => simp [importsOf]
  | cons t ts ih => rw [importsOf, List.mem_append, ih, List.exists_mem_cons_iff]

/-- A type needs the imports of all types that stand in it. -/
theorem mem_imports_iff : ∀ t : JavaType, name ∈ t.imports ↔ ∃ s :
    JavaType, s.StandsIn t ∧ name ∈ s.ownImport
  | .mk typeName arguments => by
    have ih : ∀ s ∈ arguments, name ∈ s.imports ↔ ∃ r :
        JavaType, r.StandsIn s ∧ name ∈ r.ownImport :=
      fun s _ => mem_imports_iff s
    rw [imports, List.mem_append, mem_importsOf]
    constructor
    · rintro (h | ⟨s, hs, h⟩)
      · exact ⟨_, .here, h⟩
      · obtain ⟨r, hr, h⟩ := (ih s hs).1 h
        exact ⟨r, .argument hs hr, h⟩
    · rintro ⟨r, hr, h⟩
      cases hr with
      | here => exact .inl h
      | argument hs hr => exact .inr ⟨_, hs, (ih _ hs).2 ⟨r, hr, h⟩⟩

theorem mem_ownImport_iff : name ∈ t.ownImport ↔
    (∃ package, t.packageName? = some package ∧ package ≠ "java.lang") ∧ t.isPrimitive = false ∧
      name = elementName t.qualifiedName := by
  rw [ownImport]
  cases t.packageName? with
  | none => simp
  | some package => cases t.isPrimitive <;> simp

/-- Arrays are in the package of their elements. -/
theorem fst_splitName_elementName (name : String) :
    (splitName (elementName name)).1 = (splitName name).1 := by
  obtain ⟨brackets, hcut, hdot⟩ := exists_dropBrackets name.toList.reverse
  have hpass : ∀ c ∈ brackets, (c != '.') = true :=
    fun c hc => by simpa using ne_of_mem_of_not_mem hc hdot
  rw [splitName, splitName, Text.splitLast, Text.splitLast, elementName,
    String.toList_ofList, List.reverse_reverse]
  conv_rhs => rw [hcut, List.dropWhile_append_of_pos hpass]
  cases (dropBrackets name.toList.reverse).dropWhile (· != '.') <;> rfl

end JavaType

/-- The types that stand in the head of a method: its result and its
parameters. -/
def Method.types (m : Method) : List JavaType :=
  m.returnType.toList ++ m.parameters.map (·.type)

namespace JavaUnit

open JavaType

variable {u v : JavaUnit} {t : JavaType} {ts ts' : List JavaType} {name : String}

/-- **The imports of some types in a package**, without the brackets of
arrays. -/
def IsNeeded (own : Option String) (ts : List JavaType) (name : String) : Prop :=
  ∃ s ∈ ts, ∃ t : JavaType, t.StandsIn s ∧ t.MustBeImported own ∧ name = elementName t.qualifiedName

theorem isNeeded_append {own : Option String} :
    IsNeeded own (ts ++ ts') name ↔ IsNeeded own ts name ∨ IsNeeded own ts' name := by
  simp only [IsNeeded, List.mem_append, or_and_right, exists_or]

theorem mem_neededImports_iff :
    name ∈ u.neededImports t ↔ IsNeeded u.type.packageName? [t] name := by
  rw [neededImports, List.mem_filter, mem_imports_iff, IsNeeded]
  simp only [List.mem_singleton, exists_eq_left]
  constructor
  · rintro ⟨⟨s, hs, hname⟩, hother⟩
    obtain ⟨⟨package, hpackage, hlang⟩, hreference, rfl⟩ := mem_ownImport_iff.1 hname
    rw [fst_splitName_elementName, show (splitName s.qualifiedName).1 = some package from hpackage]
      at hother
    exact ⟨s, hs, ⟨⟨package, hpackage, hlang, bne_iff_ne.1 hother⟩, hreference⟩, rfl⟩
  · rintro ⟨s, hs, ⟨⟨package, hpackage, hlang, hother⟩, hreference⟩, rfl⟩
    refine ⟨⟨s, hs, mem_ownImport_iff.2 ⟨⟨package, hpackage, hlang⟩, hreference, rfl⟩⟩, ?_⟩
    rw [fst_splitName_elementName, show (splitName s.qualifiedName).1 = some package from hpackage]
    exact bne_iff_ne.2 hother

/-! ## What a class needs -/

/-- The types that stand in a class: those of its superclass, its interfaces,
its fields and its methods. -/
def types (u : JavaUnit) : List JavaType :=
  u.superclass.toList ++ u.superInterfaces ++ u.fields.map (·.type) ++
    u.methods.flatMap Method.types

/-- **The imports of a class are those of some types**, in ascending order and
each of them once. -/
structure ImportsExactly (u : JavaUnit) (ts : List JavaType) : Prop where
  sorted : u.imports.Pairwise (· < ·)
  mem_iff : ∀ name, name ∈ u.imports ↔ IsNeeded u.type.packageName? ts name

theorem ImportsExactly.addImports (h : u.ImportsExactly ts) (ts' : List JavaType) :
    (u.addImports ts').ImportsExactly (ts ++ ts') := by
  induction ts' generalizing u ts with
  | nil => rwa [List.append_nil]
  | cons t ts' ih =>
    have hfirst : (u.addImport t).ImportsExactly (ts ++ [t]) := by
      refine ⟨Text.pairwise_foldl_insertSorted h.sorted _, fun name => ?_⟩
      rw [isNeeded_append, addImport, Text.mem_foldl_insertSorted,
        mem_neededImports_iff, h.mem_iff, or_comm]
    rw [List.append_cons]
    exact ih hfirst

/-- **A step keeps the imports exact** if it imports only types that then
stand in the class, drops none, and adds none that was not there, is imported
or needs no import. -/
theorem ImportsExactly.step (ts : List JavaType) (h : u.ImportsExactly u.types)
    (htype : v.type = u.type)
    (himports : v.imports = (u.addImports ts).imports) (hstand : ∀ t ∈ ts, t ∈ v.types)
    (hkept : ∀ t ∈ u.types, t ∈ v.types)
    (hnew : ∀ t ∈ v.types, t ∈ u.types ∨ t ∈ ts ∨ u.neededImports t = []) :
    v.ImportsExactly v.types := by
  have hall := h.addImports ts
  refine ⟨himports ▸ hall.sorted, fun name => ?_⟩
  rw [himports, hall.mem_iff, type_addImports, htype]
  constructor
  · rintro ⟨s, hs, hneeded⟩
    exact ⟨s, (List.mem_append.1 hs).elim (hkept s) (hstand s), hneeded⟩
  · rintro ⟨s, hs, hneeded⟩
    rcases hnew s hs with hs | hs | hnone
    · exact ⟨s, List.mem_append_left _ hs, hneeded⟩
    · exact ⟨s, List.mem_append_right _ hs, hneeded⟩
    · have hmem := mem_neededImports_iff.2 ⟨s, List.mem_singleton_self s, hneeded⟩
      rw [hnone] at hmem
      exact absurd hmem List.not_mem_nil

/-! ## Building a class -/

section

variable {f : Field} {m : Method}

/-- A class without members imports nothing. -/
theorem importsExactly_bare {kind : TypeKind} {lines : List String} :
    ({ kind, type := t, javadoc := lines } : JavaUnit).ImportsExactly
      ({ kind, type := t, javadoc := lines } : JavaUnit).types :=
  ⟨.nil, fun _ => ⟨fun h => absurd h List.not_mem_nil,
    fun ⟨_, hs, _⟩ => absurd hs List.not_mem_nil⟩⟩

theorem types_addField : (u.addField f).types =
    u.superclass.toList ++ u.superInterfaces ++ (u.fields.map (·.type) ++ [f.type]) ++
    u.methods.flatMap Method.types := by
  rw [types, fields_addField, List.map_append]
  rfl

theorem mem_types_addField : t ∈ (u.addField f).types ↔ t ∈ u.types ∨ t = f.type := by
  rw [types_addField, types]
  simp only [List.mem_append, List.mem_singleton]
  tauto

theorem mem_types_addMethod :
    t ∈ (u.addMethod m).types ↔ t ∈ u.types ∨ t ∈ m.types := by
  rw [types, types, methods_addMethod, List.flatMap_append, List.flatMap_singleton,
    fields_addMethod, ← List.append_assoc, List.mem_append]
  rfl

theorem ImportsExactly.addField (h : u.ImportsExactly u.types) :
    (u.addField f).ImportsExactly (u.addField f).types := by
  refine h.step (v := u.addField f) [f.type] rfl rfl ?_ (fun t ht => mem_types_addField.2 (.inl ht))
    fun t ht => ?_
  · exact fun t ht => mem_types_addField.2 (.inr (List.mem_singleton.1 ht))
  · exact (mem_types_addField.1 ht).imp_right fun heq => .inl (List.mem_singleton.2 heq)

@[simp] theorem types_addImports (u : JavaUnit) (ts : List JavaType) :
    (u.addImports ts).types = u.types := by
  induction ts generalizing u with
  | nil => rfl
  | cons t ts ih => exact ih (u.addImport t)

/-- A method comes with the imports of its types, as far as they need any. -/
theorem ImportsExactly.addMethod (ts : List JavaType) (h : u.ImportsExactly u.types)
    (hts : ∀ t ∈ ts, t ∈ m.types)
    (hrest : ∀ t ∈ m.types, t ∈ u.types ∨ t ∈ ts ∨ u.neededImports t = []) :
    ((u.addImports ts).addMethod m).ImportsExactly (((u.addImports ts).addMethod m).types) := by
  have hmem : ∀ t, t ∈ ((u.addImports ts).addMethod m).types ↔
      t ∈ u.types ∨ t ∈ m.types := by
    intro t
    rw [mem_types_addMethod, types_addImports]
  refine h.step (v := (u.addImports ts).addMethod m) ts ?_ rfl
    (fun t ht => (hmem t).2 (.inr (hts t ht)))
    (fun t ht => (hmem t).2 (.inl ht)) fun t ht => ?_
  · rw [type_addMethod, type_addImports]
  · exact ((hmem t).1 ht).elim .inl (hrest t)

/-- The superclass of a class that has none yet. -/
theorem ImportsExactly.extending (h : u.ImportsExactly u.types) (hnone : u.superclass = none) :
    (u.extending t).ImportsExactly ((u.extending t).types) := by
  have htypes : (u.extending t).types = t :: u.types := by
    rw [types, types, hnone]
    rfl
  refine h.step (v := u.extending t) [t] rfl rfl ?_ ?_ ?_ <;> rw [htypes]
  · exact fun s hs => List.mem_singleton.1 hs ▸ List.mem_cons_self
  · exact fun s hs => List.mem_cons_of_mem t hs
  · exact fun s hs => (List.mem_cons.1 hs).elim
      (fun heq => .inr (.inl (List.mem_singleton.2 heq))) .inl

theorem ImportsExactly.addSuperInterface (h : u.ImportsExactly u.types) :
    (u.addSuperInterface t).ImportsExactly ((u.addSuperInterface t).types) := by
  rw [JavaUnit.addSuperInterface]
  split
  · exact h
  · have hmem : ∀ s, s ∈
        ({ u.addImport t with superInterfaces := u.superInterfaces ++ [t] } : JavaUnit).types ↔
        s ∈ u.types ∨ s = t := by
      intro s
      simp only [types, List.mem_append, List.mem_singleton]
      show (((_ ∨ _ ∨ _) ∨ _) ∨ _) ↔ _
      tauto
    refine h.step [t] rfl rfl (fun s hs => (hmem s).2 (.inr (List.mem_singleton.1 hs)))
      (fun s hs => (hmem s).2 (.inl hs)) fun s hs => ?_
    exact ((hmem s).1 hs).imp_right fun heq => .inl (List.mem_singleton.2 heq)

end

/-! ## Members that the plugins approve -/

section

variable (named : List BuiltinPlugin) (table : TableModel) (kind : ModelKind)

/-- No type without a package needs an import. -/
theorem neededImports_primitive (u : JavaUnit) {name : String} (h : (splitName name).1 = none) :
    u.neededImports (.named name) = [] := by
  have himports : (named name).imports = [] := by
    rw [named, JavaType.imports, ownImport, importsOf, packageName?, qualifiedName_named, h]
    rfl
  rw [neededImports, himports]
  rfl

theorem ImportsExactly.addFields (ps : List BeanProperty) (h : u.ImportsExactly u.types) :
    (addFields (named.map Plugin.builtin) table kind ps u).value.ImportsExactly
      ((addFields (named.map Plugin.builtin) table kind ps u).value.types) := by
  induction ps generalizing u with
  | nil => exact h
  | cons p ps ih =>
    rw [JavaUnit.addFields, Heard.value_bind,
      (PluginChain.passes_modelField named kind p.column).value_offer]
    exact ih h.addField

/-- A getter is vetoed, or comes with the import of its type. -/
theorem ImportsExactly.addGetter (p : BeanProperty) (h : u.ImportsExactly u.types) :
    (addGetter (named.map Plugin.builtin) table kind p u).value.ImportsExactly
      ((addGetter (named.map Plugin.builtin) table kind p u).value.types) := by
  rw [JavaUnit.addGetter, Heard.value_bind, Heard.value_pure]
  split
  next m hm =>
    obtain rfl := PluginChain.eq_of_mem_offer_accessor named (fun _ => rfl) (fun _ => rfl) hm
    exact h.addMethod _ (fun t ht => List.mem_append_left _ ht) fun t ht => .inr (.inl ht)
  · exact h

/-- A setter is vetoed, or comes with the import of its parameter. -/
theorem ImportsExactly.addSetter (p : BeanProperty) (h : u.ImportsExactly u.types) :
    (addSetter (named.map Plugin.builtin) table kind p u).value.ImportsExactly
      ((addSetter (named.map Plugin.builtin) table kind p u).value.types) := by
  rw [JavaUnit.addSetter, Heard.value_bind, Heard.value_pure]
  split
  next m hm =>
    obtain rfl := PluginChain.eq_of_mem_offer_accessor named (fun _ => rfl) (fun _ => rfl) hm
    refine h.addMethod _ (fun t ht => List.mem_append_right _ ht) fun t ht => .inr ?_
    rcases List.mem_append.1 ht with ht | ht
    · obtain rfl := Option.some.inj (Option.mem_toList.1 ht)
      exact .inr (neededImports_primitive u (by decide))
    · exact .inl ht
  · exact h

theorem ImportsExactly.addAccessors (readOnly : Bool) (ps : List BeanProperty)
    (h : u.ImportsExactly u.types) :
    (addAccessors (named.map Plugin.builtin) table kind readOnly ps u).value.ImportsExactly
      ((addAccessors (named.map Plugin.builtin) table kind readOnly ps u).value.types) := by
  induction ps generalizing u with
  | nil => exact h
  | cons p ps ih =>
    rw [value_addAccessors_cons]
    refine ih ?_
    split
    · exact h.addGetter named table kind p
    · exact (h.addGetter named table kind p).addSetter named table kind p

end

end JavaUnit

/-! ## Whole classes -/

/-- The artifact of a class. -/
def ModelKind.artifact : ModelKind → ArtifactKind
  | .record => .record
  | .queryCondition => .queryCondition

namespace BuiltinPlugin

/-- The type of the annotation that a plugin adds. -/
def annotationType : BuiltinPlugin → JavaType
  | .lombok => .named "lombok.Data"
  | .mapperMark => .named "org.apache.ibatis.annotations.Mapper"

/-- **The artifacts that a plugin annotates.** -/
def annotates : BuiltinPlugin → ArtifactKind → Bool
  | .lombok, .record | .lombok, .queryCondition => true
  | .mapperMark, .mapperInterface => true
  | _, _ => false

end BuiltinPlugin

/-- The types of the annotations that plugins add to an artifact. -/
def annotationTypes (named : List BuiltinPlugin) (kind : ArtifactKind) : List JavaType :=
  (named.filter (·.annotates kind)).map (·.annotationType)

theorem annotationTypes_cons (p : BuiltinPlugin) (named : List BuiltinPlugin)
    (kind : ArtifactKind) :
    annotationTypes (p :: named) kind =
      (if p.annotates kind then [p.annotationType] else []) ++ annotationTypes named kind := by
  rw [annotationTypes, List.filter_cons]
  split <;> rfl

namespace JavaUnit

variable {table : TableModel} {u : JavaUnit}

@[simp] theorem types_annotate (u : JavaUnit) (mark : String) :
    (u.annotate mark).types = u.types := by
  unfold annotate
  split <;> rfl

@[simp] theorem imports_annotate (u : JavaUnit) (mark : String) :
    (u.annotate mark).imports = u.imports := by
  unfold annotate
  split <;> rfl

/-- **A class comes out of its offer with the imports of its annotations.** -/
theorem ImportsExactly.exists_offer (named : List BuiltinPlugin)
    (hook : Hook .unit) (kind : ArtifactKind)
    {ts : List JavaType} (h : u.ImportsExactly ts)
    (hjudge : ∀ (p : BuiltinPlugin) (u : JavaUnit), ∃ mark, (Plugin.builtin p).judge hook table u =
      some (if p.annotates kind then (u.addImport p.annotationType).annotate mark else u)) :
    ∃ v : JavaUnit, (PluginChain.offer (named.map Plugin.builtin) table hook u).value = some v ∧
    v.type = u.type ∧
      v.types = u.types ∧ v.ImportsExactly (ts ++ annotationTypes named kind) := by
  show ∃ v : JavaUnit, (PluginChain.ask hook table (named.map Plugin.builtin) u).2 = some v ∧ _
  induction named generalizing u ts with
  | nil =>
    exact ⟨u, rfl, rfl, rfl, by
      rwa [annotationTypes, List.filter_nil, List.map_nil, List.append_nil]⟩
  | cons p named ih =>
    obtain ⟨mark, hmark⟩ := hjudge p u
    rw [List.map_cons, PluginChain.ask, hmark, annotationTypes_cons]
    cases p.annotates kind with
    | false => exact ih h
    | true =>
      have hfirst : ((u.addImport p.annotationType).annotate mark).ImportsExactly
          (ts ++ [p.annotationType]) := by
        obtain ⟨hsorted, hmem⟩ := h.addImports [p.annotationType]
        exact ⟨by rwa [imports_annotate],
          fun name => by rw [imports_annotate, type_annotate]; exact hmem name⟩
      obtain ⟨v, hv, htype, htypes, himports⟩ := ih hfirst
      rw [List.append_assoc] at himports
      exact ⟨v, hv, by simpa using htype, by rw [htypes, types_annotate]; rfl, himports⟩

/-- **A class approved for a record or a query condition.** -/
theorem ImportsExactly.exists_offer_modelClass (named : List BuiltinPlugin)
    (table : TableModel) (kind : ModelKind)
    (h : u.ImportsExactly u.types) :
    ∃ v : JavaUnit,
      (PluginChain.offer (named.map Plugin.builtin) table (.modelClass kind) u).value = some v ∧
      v.type = u.type ∧ v.ImportsExactly (v.types ++ annotationTypes named kind.artifact) := by
  obtain ⟨v, hv, htype, htypes, himports⟩ := h.exists_offer named (.modelClass kind) kind.artifact
    fun p u => ⟨"@Data", by cases p <;> cases kind <;> rfl⟩
  exact ⟨v, hv, htype, htypes ▸ himports⟩

end JavaUnit

variable (settings : Settings) (table : TableModel) (named : List BuiltinPlugin)

namespace Record

/-- The version field is of a primitive type. -/
theorem importsExactly_version {u : JavaUnit} (h : u.ImportsExactly u.types) :
    ({ u with fields := u.fields ++ [versionField] } : JavaUnit).ImportsExactly
      ({ u with fields := u.fields ++ [versionField] } : JavaUnit).types := by
  have hprimitive : (u.addField versionField).imports = u.imports := by
    show (u.neededImports (.named "long")).foldl
        (fun set s => Text.insertSorted s set) u.imports = _
    rw [JavaUnit.neededImports_primitive u (by decide)]
    rfl
  have hadded := h.addField (f := versionField)
  exact ⟨hprimitive ▸ hadded.sorted, fun name => hprimitive ▸ hadded.mem_iff name⟩

theorem importsExactly_bare : (bare settings table).ImportsExactly (bare settings table).types := by
  have hstart := @JavaUnit.importsExactly_bare table.names.recordType .class (typeJavadoc table)
  rw [bare]
  cases settings.recordRoot with
  | none =>
    cases settings.serializable with
    | false => exact hstart
    | true => exact importsExactly_version hstart.addSuperInterface
  | some root =>
    have hrooted := hstart.extending (t := .named root.typeName) rfl
    cases settings.serializable with
    | false => exact hrooted
    | true => exact importsExactly_version hrooted.addSuperInterface

/-- The parameters of a constructor have the types of fields. -/
theorem types_fullConstructor {u : JavaUnit} {ps : List BeanProperty}
    (h : ∀ p ∈ ps, p.field ∈ u.fields) :
    ∀ t ∈ (fullConstructor u ps).types, t ∈ u.types := by
  intro t ht
  obtain ⟨parameter, hparameter, rfl⟩ := List.mem_map.1 ht
  obtain ⟨p, hp, rfl⟩ := List.mem_map.1 hparameter
  have hfield := List.mem_map_of_mem (f := (·.type)) (h p (List.mem_of_mem_filter hp))
  exact List.mem_append_left _ (List.mem_append_right _ hfield)

/-- **Constructors need no imports.** -/
theorem importsExactly_addConstructors {u : JavaUnit} {ps : List BeanProperty}
    (h : u.ImportsExactly u.types)
    (hfields : ∀ p ∈ ps, p.field ∈ u.fields) :
    (addConstructors settings ps u).ImportsExactly (addConstructors settings ps u).types := by
  have hadded := h.addMethod (m := fullConstructor u ps) [] (fun t ht => absurd ht List.not_mem_nil)
    fun t ht => .inl (types_fullConstructor hfields t ht)
  rw [addConstructors]
  split
  · simp only
    split
    · exact hadded
    · exact hadded.addMethod (m := emptyConstructor u) [] (fun t ht => absurd ht List.not_mem_nil)
        fun t ht => absurd ht List.not_mem_nil
  · exact h

/-- **The record of a table imports exactly what it needs.** -/
theorem exists_importsExactly :
    ∃ record, (generate settings table (named.map Plugin.builtin)).value =
      [.ofUnit .record settings.targetProject record] ∧
    record.type = table.names.recordType ∧
    record.ImportsExactly (record.types ++ annotationTypes named .record) := by
  let ps := properties settings table
  let unit :=
    (JavaUnit.addFields (named.map Plugin.builtin) table .record ps (bare settings table)).value
  have hfields : ∀ p ∈ ps, p.field ∈ unit.fields := by
    intro p hp
    rw [(JavaUnit.fields_addFields (PluginChain.passes_modelField named .record) ps
      (bare settings table)).1]
    exact List.mem_append_right _ (List.mem_map_of_mem hp)
  have hunit := (importsExactly_bare settings table).addFields named table .record ps
  have hbuilt := (importsExactly_addConstructors settings hunit hfields).addAccessors
    named table .record
    settings.immutable ps
  obtain ⟨record, happroved, htype, himports⟩ := hbuilt.exists_offer_modelClass named table .record
  refine ⟨record, ?_, ?_, himports⟩
  · unfold generate
    simp only [Heard.value_bind, Heard.value_pure]
    rw [happroved]
    rfl
  · rw [htype, (JavaUnit.fields_addAccessors _ _ _).2, type_addConstructors,
      (JavaUnit.fields_addFields (PluginChain.passes_modelField named .record) ps _).2, type_bare]

end Record

/-- **The query condition of a table imports exactly what it needs.** -/
theorem QueryCondition.exists_importsExactly :
    ∃ query, (generate settings table (named.map Plugin.builtin)).value =
      [.ofUnit .queryCondition settings.targetProject query] ∧
    query.type = table.names.queryType ∧
    query.ImportsExactly (query.types ++ annotationTypes named .queryCondition) := by
  have hstart := @JavaUnit.importsExactly_bare table.names.queryType .class (typeJavadoc table)
  have hbare : (bare settings table).ImportsExactly (bare settings table).types := by
    rw [bare]
    cases settings.queryRoot with
    | none => exact hstart
    | some root => exact hstart.extending (t := .named root) rfl
  have hbuilt :=
    (hbare.addFields named table .queryCondition (properties settings table)).addAccessors named
    table .queryCondition false (properties settings table)
  obtain ⟨query, happroved, htype, himports⟩ :=
    hbuilt.exists_offer_modelClass named table .queryCondition
  refine ⟨query, ?_, ?_, himports⟩
  · unfold generate
    simp only [Heard.value_bind, Heard.value_pure]
    rw [happroved]
    rfl
  · rw [htype, (JavaUnit.fields_addAccessors _ _ _).2,
      (JavaUnit.fields_addFields (PluginChain.passes_modelField named .queryCondition) _ _).2,
      (bare_eq settings table).2]

namespace MapperInterface

/-- Every method comes with the imports of its types. -/
theorem importsExactly_addMethods (all : List (FragmentId × Method)) {u : JavaUnit}
    (h : u.ImportsExactly u.types) :
    (addMethods table (named.map Plugin.builtin) all u).value.ImportsExactly
        (addMethods table (named.map Plugin.builtin) all u).value.types ∧
      (addMethods table (named.map Plugin.builtin) all u).value.type = u.type := by
  induction all generalizing u with
  | nil => exact ⟨h, rfl⟩
  | cons entry all ih =>
    obtain ⟨statement, m⟩ := entry
    rw [addMethods, Heard.value_bind, (PluginChain.passes_clientMethod named statement).value_offer]
    obtain ⟨himports, htype⟩ := ih (h.addMethod _ (fun t ht => ht) fun t ht => .inr (.inl ht))
    refine ⟨himports, htype.trans ?_⟩
    rw [JavaUnit.type_addMethod, JavaUnit.type_addImports]

/-- **The mapper interface of a table imports exactly what it needs.** -/
theorem exists_importsExactly :
    ∃ mapper, (generate settings table (named.map Plugin.builtin)).value =
      [.ofUnit .mapperInterface settings.targetProject mapper] ∧
    mapper.type = table.names.mapperType ∧
      mapper.ImportsExactly (mapper.types ++ annotationTypes named .mapperInterface) := by
  obtain ⟨hbuilt, hmapper⟩ := importsExactly_addMethods table named (methods table)
    (u := bare table) JavaUnit.importsExactly_bare
  obtain ⟨mapper, happroved, htype, htypes, himports⟩ :=
    hbuilt.exists_offer named .clientInterface .mapperInterface
      fun p u => ⟨"@Mapper", by cases p <;> rfl⟩
  refine ⟨mapper, ?_, htype.trans hmapper, htypes ▸ himports⟩
  unfold generate
  simp only [Heard.value_bind, Heard.value_pure]
  rw [happroved]
  rfl

end MapperInterface

/-- **Imports are exactly what a class needs**, whichever of the plugins that
can be named are at work: those of the types that stand in it, at any depth,
and those of the annotations that plugins add. -/
theorem importsExactly_generateTable :
    ∀ a ∈ (generateTable settings (named.map Plugin.builtin) table Generator.defaults).value, ∀ u, a.body = .java u →
      u.ImportsExactly (u.types ++ annotationTypes named a.kind) := by
  obtain ⟨record, hrecords, -, hrecord⟩ := Record.exists_importsExactly settings table named
  obtain ⟨query, hqueries, -, hquery⟩ := QueryCondition.exists_importsExactly settings table named
  obtain ⟨mapper, hmappers, -, hmapper⟩ :=
    MapperInterface.exists_importsExactly settings table named
  rw [value_generateTable_of_units hrecords hqueries hmappers]
  simp only [List.forall_mem_cons, List.not_mem_nil, Artifact.ofUnit, ArtifactBody.java.injEq,
    forall_eq', Artifact.ofDocument, reduceCtorEq, false_implies, implies_true, and_true]
  exact ⟨hrecord, hquery, hmapper⟩

/-- The class of an artifact and what it imports. -/
def Artifact.header (a : Artifact) : String × List String :=
  match a.body with
  | .java u => (u.type.qualifiedName, u.imports)
  | .markup _ => ("", [])

/-- A serializable record of orders that plugins annotate imports the interface
and the annotation, and no type of the language. -/
theorem importsExactly_orders : ∃ a u,
    a ∈ (generateTable { serializable := true } ([.lombok, .mapperMark].map Plugin.builtin) (ordersWith "a_b")
      Generator.defaults).value ∧ a.body = .java u ∧
      u.imports = ["java.io.Serializable", "lombok.Data"] ∧
      u.ImportsExactly (u.types ++ annotationTypes [.lombok, .mapperMark] a.kind) := by
  obtain ⟨record, hrecords, -⟩ :=
    Record.exists_importsExactly { serializable := true } (ordersWith "a_b") [.lombok, .mapperMark]
  have hheader : (Record.generate { serializable := true } (ordersWith "a_b")
      ([.lombok, .mapperMark].map Plugin.builtin)).value.map Artifact.header =
        [("com.example.model.Orders", ["java.io.Serializable", "lombok.Data"])] := by
    decide +kernel
  rw [hrecords] at hheader
  have himports := congrArg Prod.snd (List.singleton_inj.1 hheader)
  have hmem : .ofUnit .record ({ serializable := true } : Settings).targetProject record ∈
      (generateTable { serializable := true } ([.lombok, .mapperMark].map Plugin.builtin)
        (ordersWith "a_b") Generator.defaults).value :=
    List.mem_append_left _ (hrecords ▸ List.mem_singleton_self _)
  exact ⟨_, record, hmem, rfl, himports, importsExactly_generateTable _ _ _ _ hmem record rfl⟩

end TableMapper
