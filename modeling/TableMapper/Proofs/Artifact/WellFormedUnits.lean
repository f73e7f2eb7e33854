import TableMapper.Proofs.Artifact.Classes
import TableMapper.Proofs.Artifact.PlainMembers

/-!
# The units that generators build

Generators begin with a bare unit and add members, imports and annotations.
**Every such step keeps a unit well formed** (`JavaUnit.Grows`), whichever of
the plugins the configuration can name are at work: they veto accessors and
add an annotation with its import, and leave all else alone. So the units of
a table with plain names are well formed (`Record.exists_generate_builtin`
and its siblings).
-/

namespace TableMapper

open Source

/-! ## What plugins do -/

namespace PluginChain

variable {plugins : PluginChain} {s : Shape} {hook : Hook s}

/-- A part that is approved is as each plugin left it, one after another. -/
theorem exists_value_offer {R : s.Carrier → s.Carrier → Prop} (hrefl : ∀ part, R part part)
    (htrans : ∀ {first second third}, R first second → R second third → R first third)
    (table : TableModel)
    (h : ∀ plugin ∈ plugins, ∀ part, ∃ edited, plugin.judge hook table part = some edited ∧
      R part edited)
    (part : s.Carrier) : ∃ edited, (plugins.offer table hook part).value = some edited ∧
    R part edited := by
  show ∃ edited, (plugins.ask hook table part).2 = some edited ∧ R part edited
  induction plugins generalizing part with
  | nil => exact ⟨part, rfl, hrefl part⟩
  | cons plugin rest ih =>
    obtain ⟨hfirst, hrest⟩ := List.forall_mem_cons.1 h
    obtain ⟨edited, hedited, hR⟩ := hfirst part
    obtain ⟨last, hlast, hR'⟩ := ih hrest edited
    exact ⟨last, by rw [ask, hedited]; exact hlast, htrans hR hR'⟩

/-- A part that no plugin edits is approved as it is, if it is approved. -/
theorem eq_of_mem_value_offer {table : TableModel}
    (h : ∀ plugin ∈ plugins, ∀ part, ∀ edited ∈ plugin.judge hook table part, edited = part)
    {part edited : s.Carrier}
    (hedited : edited ∈ (plugins.offer table hook part).value) : edited = part := by
  replace hedited : edited ∈ (plugins.ask hook table part).2 := hedited
  induction plugins with
  | nil => exact (Option.some.inj hedited).symm
  | cons plugin rest ih =>
    obtain ⟨hfirst, hrest⟩ := List.forall_mem_cons.1 h
    rw [ask] at hedited
    cases hjudge : plugin.judge hook table part with
    | none => simp [hjudge] at hedited
    | some part' =>
      obtain rfl := hfirst part part' hjudge
      rw [hjudge] at hedited
      exact ih hrest hedited

theorem passes_modelField (named : List BuiltinPlugin) (kind : ModelKind)
    (column : Option ColumnModel) :
    Passes (named.map Plugin.builtin) (.modelField kind column) :=
  passes_builtin named _ fun p _ => by cases p <;> rfl

/-- A class is approved with its fields. -/
theorem exists_offer_modelClass (named : List BuiltinPlugin) (table : TableModel)
    (kind : ModelKind) (u : JavaUnit) :
    ∃ v : JavaUnit, (offer (named.map Plugin.builtin) table (.modelClass kind) u).value = some v ∧
      v.fields = u.fields ∧ v.type = u.type := by
  refine @exists_value_offer _ .unit _ (fun u v : JavaUnit => v.fields = u.fields ∧ v.type = u.type)
    (fun _ => ⟨rfl, rfl⟩) (fun h h' => ⟨h'.1.trans h.1, h'.2.trans h.2⟩) table
      (fun plugin hplugin part => ?_) u
  obtain ⟨p, -, rfl⟩ := List.mem_map.1 hplugin
  cases p with
  | lombok => exact ⟨_, rfl, by simp, by simp⟩
  | mapperMark => exact ⟨part, rfl, rfl, rfl⟩

theorem passes_clientMethod (named : List BuiltinPlugin) (statement : FragmentId) :
    Passes (named.map Plugin.builtin) (.clientMethod statement) :=
  passes_builtin named _ fun p _ => by cases p <;> rfl

/-- Accessors are approved as they are, or not at all. -/
theorem eq_of_mem_offer_accessor (named : List BuiltinPlugin)
    {hook : Hook .method} {table : TableModel}
    (hlombok : ∀ m, (Plugin.builtin .lombok).judge hook table m = none)
    (hmark : ∀ m, (Plugin.builtin .mapperMark).judge hook table m = some m) {m edited : Method}
    (h : edited ∈ (offer (named.map Plugin.builtin) table hook m).value) : edited = m := by
  refine eq_of_mem_value_offer (fun plugin hplugin part edited hedited => ?_) h
  obtain ⟨p, -, rfl⟩ := List.mem_map.1 hplugin
  cases p with
  | lombok => exact absurd hedited (by simp [hlombok])
  | mapperMark => exact (Option.some.inj (hmark part ▸ hedited)).symm

end PluginChain

/-! ## Imports of plain types -/

theorem brackets_succ (dimensions : Nat) :
    brackets (dimensions + 1) = brackets dimensions ++ ['[', ']'] := by
  induction dimensions with
  | zero => rfl
  | succ dimensions ih =>
    show '[' :: ']' :: brackets (dimensions + 1) = '[' :: ']' :: (brackets dimensions ++ ['[', ']'])
    rw [ih]

namespace JavaType

/-- What is dropped of a name are brackets. -/
theorem exists_dropBrackets (cs : List Char) :
    ∃ brackets, cs = brackets ++ dropBrackets cs ∧ '.' ∉ brackets := by
  fun_induction dropBrackets cs with
  | case1 rest ih =>
    obtain ⟨brackets, hcut, hdot⟩ := ih
    exact ⟨']' :: '[' :: brackets, congrArg (']' :: '[' :: ·) hcut, by simp [hdot]⟩
  | case2 cs => exact ⟨[], rfl, List.not_mem_nil⟩

/-- The element type of an array has the name without brackets. -/
theorem elementName_eq {name : String} {path : List Char} {dimensions : Nat} (hpath : IsDotted path)
    (hname : name.toList = path ++ brackets dimensions) : (elementName name).toList = path := by
  obtain ⟨front, c, rfl, hc⟩ := hpath.getLast
  have hclose : c ≠ ']' := ne_of_isNameChar hc (by decide)
  -- the brackets are dropped from the end, pair by pair
  have hdrop : ∀ dimensions, dropBrackets (front ++ [c] ++ brackets dimensions).reverse
      = (front ++ [c]).reverse := by
    intro dimensions
    induction dimensions with
    | zero =>
      rw [brackets, List.append_nil, List.reverse_append, List.reverse_singleton,
        List.singleton_append, dropBrackets]
      exact fun _ heq => hclose (List.cons.inj heq).1
    | succ dimensions ih =>
      rw [brackets_succ, ← List.append_assoc, List.reverse_append]
      exact ih
  rw [elementName, hname, hdrop, List.reverse_reverse, String.toList_ofList]

/-- A type needs an import of a dotted name, or none. -/
theorem isImport_of_mem_ownImport {name imported : String} (h : IsTypeName name.toList)
    (himport : imported ∈ ownImport (named name)) : IsImport imported.toList := by
  obtain ⟨path, dimensions, hpath, hname⟩ := h
  rw [ownImport] at himport
  split at himport
  · exact absurd himport List.not_mem_nil
  · split at himport
    · rw [List.mem_singleton.1 himport, qualifiedName_named]
      exact .inl ⟨path, hpath, .inl (elementName_eq hpath hname)⟩
    · exact absurd himport List.not_mem_nil

/-- **The imports of a plain type can be written.** -/
theorem IsPlain.isImport {t : JavaType} (h : t.IsPlain) :
    ∀ name ∈ t.imports, IsImport name.toList := by
  intro imported himport
  obtain ⟨name, hname, rfl | rfl⟩ := h
  · rcases List.mem_append.1 himport with himport | himport
    · exact isImport_of_mem_ownImport hname himport
    · exact absurd himport List.not_mem_nil
  · rcases List.mem_append.1 himport with himport | himport
    · have hlist : IsDotted "java.util.List".toList := isDotted_of_isPackageName (by decide)
      exact isImport_of_mem_ownImport hlist.isTypeName himport
    · rw [importsOf, importsOf, List.append_nil] at himport
      rcases List.mem_append.1 himport with himport | himport
      · exact isImport_of_mem_ownImport hname himport
      · exact absurd himport List.not_mem_nil

/-- **A class named by its package and an identifier.** -/
def IsClass (t : JavaType) : Prop :=
  ∃ package object : String, t = named (package ++ "." ++ object) ∧ IsDotted package.toList ∧
    IsIdentifier object.toList

theorem isTypeName_class {package object : String} (hpackage : IsDotted package.toList)
    (hobject : IsIdentifier object.toList) : IsTypeName (package ++ "." ++ object).toList := by
  rw [String.toList_append, String.toList_append, List.append_assoc]
  exact (hpackage.dot hobject).isTypeName

theorem IsClass.isPlain {t : JavaType} (h : t.IsClass) : t.IsPlain := by
  obtain ⟨package, object, rfl, hpackage, hobject⟩ := h
  exact isPlain_named (isTypeName_class hpackage hobject)

theorem IsClass.isPlain_listOf {t : JavaType} (h : t.IsClass) : (listOf t).IsPlain := by
  obtain ⟨package, object, rfl, hpackage, hobject⟩ := h
  exact JavaType.isPlain_listOf (isTypeName_class hpackage hobject)

/-- The parts of the name of a class. -/
theorem splitName_class {package object : String} (hobject : IsIdentifier object.toList) :
    splitName (package ++ "." ++ object) = (some package, object) := by
  have hdot : '.' ∉ object.toList := fun hmem => absurd (hobject.isNameChar '.' hmem) (by decide)
  have htext : (package ++ "." ++ object).toList = package.toList ++ '.' :: object.toList := by simp
  rw [splitName, htext, Text.splitLast_append hdot]
  simp

end JavaType

/-! ## Units that grow -/

namespace JavaUnit

/-- **A unit with further members, imports and annotations**, which is well
formed if it was before. -/
structure Grows (u v : JavaUnit) : Prop where
  same : v = { u with
    imports := v.imports
    annotations := v.annotations
    fields := v.fields
    methods := v.methods }
  wellFormed : u.WellFormed → v.WellFormed

section

variable {u v w : JavaUnit} {t : JavaType} {ts : List JavaType} {f : Field}
  {m : Method} {mark : String}

theorem Grows.refl (u : JavaUnit) : u.Grows u :=
  ⟨rfl, id⟩

theorem Grows.trans (h : u.Grows v) (h' : v.Grows w) : u.Grows w where
  same := h'.same.trans (congrArg (fun x : JavaUnit => { x with
    imports := w.imports
    annotations := w.annotations
    fields := w.fields
    methods := w.methods }) h.same)
  wellFormed := h'.wellFormed ∘ h.wellFormed

namespace Grows

variable (h : u.Grows v)
include h

/-! Members, imports and annotations are no part of the header. -/

theorem type_eq : v.type = u.type := by
  rw [h.same]

theorem superclass_eq : v.superclass = u.superclass := by
  rw [h.same]

theorem superInterfaces_eq : v.superInterfaces = u.superInterfaces := by
  rw [h.same]

theorem retained_eq : v.retained = u.retained := by
  rw [h.same]

end Grows

theorem WellFormed.addImport (h : u.WellFormed) (ht : t.IsPlain) : (u.addImport t).WellFormed :=
  { h with
    imports := by
      intro name hname
      rcases Text.mem_foldl_insertSorted.1 hname with hname | hname
      · exact ht.isImport name (List.mem_of_mem_filter hname)
      · exact h.imports name hname
    ascending := Text.pairwise_foldl_insertSorted h.ascending _ }

theorem grows_addImport (ht : t.IsPlain) : u.Grows (u.addImport t) :=
  ⟨rfl, fun h => h.addImport ht⟩

theorem grows_addImports (hts : ∀ t ∈ ts, t.IsPlain) : u.Grows (u.addImports ts) := by
  induction ts generalizing u with
  | nil => exact .refl u
  | cons t ts ih =>
    exact (grows_addImport (hts t List.mem_cons_self)).trans
      (ih fun other hother => hts other (List.mem_cons_of_mem t hother))

theorem grows_addField (hf : f.IsPlain) : u.Grows (u.addField f) :=
  ⟨rfl, fun h => { h.addImport hf.type with
    fields := List.forall_mem_append.2 ⟨h.fields, List.forall_mem_singleton.2 hf.isGenerated⟩ }⟩

theorem grows_addMethod (hm : m.IsPlain) : u.Grows (u.addMethod m) :=
  ⟨rfl, fun h => { h with
    methods := List.forall_mem_append.2
      ⟨h.methods, List.forall_mem_singleton.2 (hm.isGenerated h.type)⟩ }⟩

theorem grows_annotate (hmark : IsAnnotation mark) : u.Grows (u.annotate mark) := by
  rw [annotate]
  split
  · exact .refl u
  · exact ⟨rfl, fun h => { h with
      annotations := List.forall_mem_append.2 ⟨h.annotations, List.forall_mem_singleton.2 hmark⟩ }⟩

/-! ## Bare units -/

theorem wellFormed_bare {kind : TypeKind} {lines : List String} (ht : t.IsPlain)
    (hlines : IsJavadoc lines) :
    ({ kind, type := t, javadoc := lines } : JavaUnit).WellFormed where
  type := ht
  superclass := fun _ hsuper => absurd hsuper (by simp)
  superInterfaces := List.forall_mem_nil _
  noSuperclass := fun _ => rfl
  imports := List.forall_mem_nil _
  ascending := .nil
  annotations := List.forall_mem_nil _
  javadoc := hlines
  fields := List.forall_mem_nil _
  methods := List.forall_mem_nil _

theorem WellFormed.extending (h : u.WellFormed) (hkind : u.kind = .class) (ht : t.IsPlain) :
    (u.extending t).WellFormed :=
  { h.addImport ht with
    superclass := by
      rintro _ ⟨⟩
      exact ht
    noSuperclass := fun hinterface => absurd (hkind.symm.trans hinterface) (by decide) }

theorem WellFormed.addSuperInterface (h : u.WellFormed) (ht : t.IsPlain) :
    (u.addSuperInterface t).WellFormed := by
  rw [JavaUnit.addSuperInterface]
  split
  · exact h
  · exact { h.addImport ht with
      superInterfaces := List.forall_mem_append.2
        ⟨h.superInterfaces, List.forall_mem_singleton.2 ht⟩ }

end

/-! ## Members and plugins -/

section

variable (named : List BuiltinPlugin) (table : TableModel) {kind : ModelKind}

theorem grows_addFields {ps : List BeanProperty} (h : ∀ p ∈ ps, p.IsPlain) (u : JavaUnit) :
    u.Grows (addFields (named.map Plugin.builtin) table kind ps u).value := by
  induction ps generalizing u with
  | nil => exact .refl u
  | cons p ps ih =>
    rw [addFields, Heard.value_bind,
      (PluginChain.passes_modelField named kind p.column).value_offer]
    exact (grows_addField (h p List.mem_cons_self).field).trans
      (ih (fun q hq => h q (List.mem_cons_of_mem p hq)) _)

theorem grows_addGetter {p : BeanProperty} (h : p.IsPlain) (u : JavaUnit) :
    u.Grows (addGetter (named.map Plugin.builtin) table kind p u).value := by
  rw [addGetter, Heard.value_bind, Heard.value_pure]
  split
  next m hm =>
    obtain rfl := PluginChain.eq_of_mem_offer_accessor named (fun _ => rfl) (fun _ => rfl) hm
    exact (grows_addImports (List.forall_mem_singleton.2 h.type)).trans (grows_addMethod h.getter)
  · exact .refl u

theorem grows_addSetter {p : BeanProperty} (h : p.IsPlain) (u : JavaUnit) :
    u.Grows (addSetter (named.map Plugin.builtin) table kind p u).value := by
  rw [addSetter, Heard.value_bind, Heard.value_pure]
  split
  next m hm =>
    obtain rfl := PluginChain.eq_of_mem_offer_accessor named (fun _ => rfl) (fun _ => rfl) hm
    exact (grows_addImports (List.forall_mem_singleton.2 h.type)).trans (grows_addMethod h.setter)
  · exact .refl u

theorem grows_addAccessors (readOnly : Bool) {ps : List BeanProperty}
    (h : ∀ p ∈ ps, p.IsPlain) (u : JavaUnit) :
    u.Grows (addAccessors (named.map Plugin.builtin) table kind readOnly ps u).value := by
  induction ps generalizing u with
  | nil => exact .refl u
  | cons p ps ih =>
    have hp := h p List.mem_cons_self
    rw [value_addAccessors_cons]
    refine Grows.trans ?_ (ih (fun q hq => h q (List.mem_cons_of_mem p hq)) _)
    split
    · exact grows_addGetter named table hp u
    · exact (grows_addGetter named table hp u).trans (grows_addSetter named table hp _)

/-- An annotation without arguments. -/
theorem isAnnotation_of_mark {mark : String} (name : List Char)
    (hmark : codes (ofText mark) = '@' :: name)
    (hname : IsIdentifier name) (hdollar : '$' ∉ name)
    (hkeyword : ∀ kind : DeclaredKind, name ≠ kind.keyword.toList) :
    IsAnnotation mark :=
  ⟨name, [], by rw [hmark, List.append_nil],
    isMarkName_of_isIdentifier hname hdollar hkeyword, .inl rfl⟩

/-- A class is approved, with what the plugins add to it. -/
theorem exists_offer_modelClass (kind : ModelKind) (u : JavaUnit) :
    ∃ v, (PluginChain.offer (named.map Plugin.builtin) table (.modelClass kind) u).value = some v ∧
    u.Grows v := by
  refine @PluginChain.exists_value_offer _ .unit _ Grows Grows.refl Grows.trans table
    (fun plugin hplugin part => ?_) u
  obtain ⟨p, -, rfl⟩ := List.mem_map.1 hplugin
  cases p with
  | lombok =>
    have htype : (JavaType.named "lombok.Data").IsPlain :=
      JavaType.isPlain_of_isPackageName (by decide)
    have hmark : IsAnnotation "@Data" :=
      isAnnotation_of_mark "Data".toList (by decide) (by decide) (by decide) fun kind => by
        cases kind <;> decide
    exact ⟨_, rfl, (grows_addImport htype).trans (grows_annotate hmark)⟩
  | mapperMark => exact ⟨part, rfl, .refl part⟩

/-- An interface is approved, with what the plugins add to it. -/
theorem exists_offer_clientInterface (u : JavaUnit) :
    ∃ v, (PluginChain.offer (named.map Plugin.builtin) table .clientInterface u).value = some v ∧
    u.Grows v := by
  refine @PluginChain.exists_value_offer _ .unit _ Grows Grows.refl Grows.trans table
    (fun plugin hplugin part => ?_) u
  obtain ⟨p, -, rfl⟩ := List.mem_map.1 hplugin
  cases p with
  | lombok => exact ⟨part, rfl, .refl part⟩
  | mapperMark =>
    have htype : (JavaType.named "org.apache.ibatis.annotations.Mapper").IsPlain :=
      JavaType.isPlain_of_isPackageName (by decide)
    have hmark : IsAnnotation "@Mapper" :=
      isAnnotation_of_mark "Mapper".toList (by decide) (by decide) (by decide) fun kind => by
        cases kind <;> decide
    exact ⟨_, rfl, (grows_addImport htype).trans (grows_annotate hmark)⟩

end

end JavaUnit

/-! ## The units of a table -/

/-- **A table with plain names**: those of its artifacts, of its properties
and their types, and no documentation that ends its comment. -/
structure TableModel.IsPlain (table : TableModel) : Prop where
  recordType : table.names.recordType.IsClass
  queryType : table.names.queryType.IsClass
  mapperType : table.names.mapperType.IsClass
  columns : ∀ c ∈ table.columns, (BeanProperty.ofColumn table c).IsPlain
  queryFields : ∀ f ∈ table.queryFields, (QueryCondition.fieldProperty table f).IsPlain
  paging : ∀ p ∈ QueryCondition.pagingProperties table, p.IsPlain
  javadoc : IsJavadoc (typeJavadoc table)

section

variable {settings : Settings} {table : TableModel} (named : List BuiltinPlugin)

namespace Record

/-- The superclass the settings ask for. -/
def superclass? (settings : Settings) : Option JavaType :=
  settings.recordRoot.map fun root => .named root.typeName

/-- The interfaces of a record. -/
def superInterfaces (settings : Settings) : List JavaType :=
  if settings.serializable then [.named "java.io.Serializable"] else []

theorem isPlain_serializable : (JavaType.named "java.io.Serializable").IsPlain :=
  JavaType.isPlain_of_isPackageName (by decide)

/-- **A record before its properties are added.** -/
theorem wellFormed_bare (h : table.IsPlain)
    (hroot : ∀ root ∈ settings.recordRoot, IsTypeName root.typeName.toList) :
    (bare settings table).WellFormed := by
  have hstart : ({ kind := .class, type := table.names.recordType, javadoc := typeJavadoc table } :
    JavaUnit).WellFormed :=
    JavaUnit.wellFormed_bare h.recordType.isPlain h.javadoc
  -- the superclass comes first, then what makes the record serializable
  have hversion : ∀ {u : JavaUnit}, u.WellFormed →
      ({ u with fields := u.fields ++ [versionField] } : JavaUnit).WellFormed :=
    fun hu => { hu with
      fields := List.forall_mem_append.2
        ⟨hu.fields, List.forall_mem_singleton.2 isPlain_versionField.isGenerated⟩ }
  rw [bare]
  cases hrecord : settings.recordRoot with
  | none =>
    simp only
    split
    · exact hversion (hstart.addSuperInterface isPlain_serializable)
    · exact hstart
  | some root =>
    have hextended := hstart.extending rfl (JavaType.isPlain_named (hroot root hrecord))
    simp only
    split
    · exact hversion (hextended.addSuperInterface isPlain_serializable)
    · exact hextended

/-- What a record extends and implements is up to the settings. -/
theorem header_bare :
    (bare settings table).kind = .class ∧ (bare settings table).type = table.names.recordType ∧
    (bare settings table).superclass = superclass? settings ∧
    (bare settings table).superInterfaces = superInterfaces settings ∧
    (bare settings table).retained = [] := by
  rw [bare, superclass?, superInterfaces]
  cases settings.recordRoot <;> cases settings.serializable <;> exact ⟨rfl, rfl, rfl, rfl, rfl⟩

theorem grows_addConstructors {ps : List BeanProperty} (h : ∀ p ∈ ps, p.IsPlain) (u : JavaUnit) :
    u.Grows (addConstructors settings ps u) := by
  have hfull := JavaUnit.grows_addMethod (u := u) (isPlain_fullConstructor u h)
  rw [addConstructors]
  split
  · simp only
    split
    · exact hfull
    · exact hfull.trans (JavaUnit.grows_addMethod (isPlain_emptyConstructor u))
  · exact .refl u

/-- **The record of a table with plain names** is well formed. -/
theorem exists_generate_builtin (h : table.IsPlain)
    (hroot : ∀ root ∈ settings.recordRoot, IsTypeName root.typeName.toList) :
    ∃ record, (generate settings table (named.map Plugin.builtin)).value
      = [.ofUnit .record settings.targetProject record] ∧
      record.WellFormed ∧ record.type = table.names.recordType ∧
      record.superclass = superclass? settings ∧
      record.superInterfaces = superInterfaces settings ∧ record.retained = [] := by
  have hproperties : ∀ p ∈ properties settings table, p.IsPlain := by
    intro p hp
    obtain ⟨c, hc, rfl⟩ := List.mem_map.1 hp
    exact h.columns c (List.mem_of_mem_filter hc)
  obtain ⟨record, happroved, hclass⟩ := JavaUnit.exists_offer_modelClass named table .record
    (JavaUnit.addAccessors (named.map Plugin.builtin) table .record settings.immutable
      (properties settings table) (addConstructors settings (properties settings table)
        (JavaUnit.addFields (named.map Plugin.builtin) table .record (properties settings table)
          (bare settings table)).value)).value
  have hgrows : (bare settings table).Grows record :=
    (((JavaUnit.grows_addFields named table hproperties _).trans
      (grows_addConstructors hproperties _)).trans
        (JavaUnit.grows_addAccessors named table _ hproperties _)).trans hclass
  obtain ⟨-, htype, hsuper, hinterfaces, hretained⟩ := @header_bare settings table
  refine ⟨record, ?_, hgrows.wellFormed (wellFormed_bare h hroot), hgrows.type_eq.trans htype,
    hgrows.superclass_eq.trans hsuper, hgrows.superInterfaces_eq.trans hinterfaces,
    hgrows.retained_eq.trans hretained⟩
  rw [generate]
  simp only [Heard.value_bind, Heard.value_pure, happroved]
  rfl

end Record

/-- **The query condition of a table with plain names** is well formed. -/
theorem QueryCondition.exists_generate_builtin (h : table.IsPlain)
    (hroot : ∀ root ∈ settings.queryRoot, IsTypeName root.toList) :
    ∃ query, (generate settings table (named.map Plugin.builtin)).value =
        [.ofUnit .queryCondition settings.targetProject query] ∧
      query.WellFormed ∧ query.type = table.names.queryType ∧ query.superInterfaces = [] ∧
      query.retained = [] := by
  have hproperties : ∀ p ∈ properties settings table, p.IsPlain :=
    forall_mem_properties h.queryFields h.paging
  have hbare : (bare settings table).WellFormed ∧
      (bare settings table).type = table.names.queryType ∧
      (bare settings table).superInterfaces = [] ∧ (bare settings table).retained = [] := by
    have hstart : ({ kind := .class, type := table.names.queryType, javadoc := typeJavadoc table } :
      JavaUnit).WellFormed :=
      JavaUnit.wellFormed_bare h.queryType.isPlain h.javadoc
    rw [bare]
    cases hquery : settings.queryRoot with
    | none => exact ⟨hstart, rfl, rfl, rfl⟩
    | some root =>
      exact ⟨hstart.extending rfl (JavaType.isPlain_named (hroot root hquery)), rfl, rfl, rfl⟩
  obtain ⟨query, happroved, hclass⟩ := JavaUnit.exists_offer_modelClass named table .queryCondition
    (JavaUnit.addAccessors (named.map Plugin.builtin) table .queryCondition false
      (properties settings table)
        (JavaUnit.addFields (named.map Plugin.builtin) table .queryCondition
          (properties settings table) (bare settings table)).value).value
  have hgrows : (bare settings table).Grows query :=
    ((JavaUnit.grows_addFields named table hproperties _).trans
      (JavaUnit.grows_addAccessors named table _ hproperties _)).trans hclass
  obtain ⟨hwell, htype, hinterfaces, hretained⟩ := hbare
  refine ⟨query, ?_, hgrows.wellFormed hwell, hgrows.type_eq.trans htype,
    hgrows.superInterfaces_eq.trans hinterfaces, hgrows.retained_eq.trans hretained⟩
  rw [generate]
  simp only [Heard.value_bind, Heard.value_pure, happroved]
  rfl

namespace MapperInterface

/-- The methods of an interface, with the imports of their types. -/
theorem grows_addMethods {all : List (FragmentId × Method)} (h : ∀ entry ∈ all, entry.2.IsPlain)
    (u : JavaUnit) :
    u.Grows (addMethods table (named.map Plugin.builtin) all u).value := by
  induction all generalizing u with
  | nil => exact .refl u
  | cons entry all ih =>
    obtain ⟨statement, m⟩ := entry
    have hm : m.IsPlain := h (statement, m) List.mem_cons_self
    have htypes : ∀ t ∈ m.returnType.toList ++ m.parameters.map (·.type), t.IsPlain := by
      rw [List.forall_mem_append]
      refine ⟨fun t ht => (hm.name t (Option.mem_toList.1 ht)).1, fun t ht => ?_⟩
      obtain ⟨p, hp, rfl⟩ := List.mem_map.1 ht
      exact (hm.parameters p hp).2.1
    rw [addMethods, Heard.value_bind, (PluginChain.passes_clientMethod named statement).value_offer]
    exact ((JavaUnit.grows_addImports htypes).trans (JavaUnit.grows_addMethod hm)).trans
      (ih (fun other hother => h other (List.mem_cons_of_mem _ hother)) _)

theorem isPlain_methods (h : table.IsPlain) : ∀ entry ∈ methods table, entry.2.IsPlain := by
  have hint : (JavaType.named "int").IsPlain := JavaType.isPlain_of_isPackageName (by decide)
  have hlong : (JavaType.named "long").IsPlain := JavaType.isPlain_of_isPackageName (by decide)
  have hqc : IsIdentifier "qc".toList := by decide
  apply forall_mem_methods
  · exact isPlain_declaration (by decide) hint (by decide) h.recordType.isPlain
  · exact isPlain_declaration (by decide) hint (by decide) h.recordType.isPlain_listOf
  · exact isPlain_declaration (by decide) hlong hqc h.queryType.isPlain
  · exact isPlain_declaration (by decide) h.recordType.isPlain hqc h.queryType.isPlain
  · exact isPlain_declaration (by decide) h.recordType.isPlain_listOf hqc h.queryType.isPlain

/-- **The mapper interface of a table with plain names** is well formed. -/
theorem exists_generate_builtin (h : table.IsPlain) :
    ∃ mapper, (generate settings table (named.map Plugin.builtin)).value =
        [.ofUnit .mapperInterface settings.targetProject mapper] ∧
      mapper.WellFormed ∧ mapper.type = table.names.mapperType ∧ mapper.superInterfaces = [] ∧
      mapper.retained = [] := by
  obtain ⟨mapper, happroved, hinterface⟩ := JavaUnit.exists_offer_clientInterface named table
    (addMethods table (named.map Plugin.builtin) (methods table) (bare table)).value
  have hgrows : (bare table).Grows mapper :=
    (grows_addMethods named (isPlain_methods h) _).trans hinterface
  refine ⟨mapper, ?_, hgrows.wellFormed (JavaUnit.wellFormed_bare h.mapperType.isPlain h.javadoc),
    hgrows.type_eq, hgrows.superInterfaces_eq, hgrows.retained_eq⟩
  rw [generate]
  simp only [Heard.value_bind, Heard.value_pure, happroved]
  rfl

end MapperInterface

end

end TableMapper
