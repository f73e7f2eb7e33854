import TableMapper.Artifact.Generator
import TableMapper.Proofs.Artifact.InertCode

/-!
# What the database says stays in comments

The name of a table and its remarks, and those of its columns, are written
into the documentation of the generated units, line by line and otherwise as
they are. A comment may hold any text but its own end. **So the comments of
the units of a table are whole exactly if no part of the name of the table,
no name of a documented column and no remark holds the two characters that
end a comment** (`generateTable_sealsComments_iff`), provided that the names that reach the
code hold no quotes and slashes (`TableModel.HasInertNames`). A remark that
does end its comment leaves the rest of it as code (`not_sealed_orders`).
-/

namespace TableMapper

open Source

/-! ## Documentation -/

section

variable {line : String} {lines : List String} {table : TableModel} {c : ColumnModel}

/-- **A text with the end of a comment in it.** -/
def EndsComment (s : String) : Prop :=
  ['*', '/'] <:+: s.toList

instance (s : String) : Decidable (EndsComment s) :=
  decidable_of_iff _ Text.occursIn_iff

theorem isJavadoc_cons : IsJavadoc (line :: lines) ↔ ¬ EndsComment line ∧ IsJavadoc lines :=
  List.forall_mem_cons

theorem isJavadoc_taggedJavadoc_iff : IsJavadoc (taggedJavadoc lines) ↔ IsJavadoc lines := by
  refine ⟨fun h line hline => h line ?_, isJavadoc_taggedJavadoc⟩
  have hne : lines.isEmpty = false := by
    cases lines with
    | nil => exact absurd hline List.not_mem_nil
    | cons => rfl
  rw [taggedJavadoc, hne]
  exact List.mem_append_left _ (List.mem_append_left _ hline)

/-- Some line of a remark ends a comment exactly if the remark does. -/
theorem isJavadoc_remarkLines (remarks : Option String) :
    IsJavadoc (remarkLines remarks) ↔ ∀ text ∈ remarks, ¬ EndsComment text := by
  have htext : ∀ text : String, IsJavadoc (remarkLines (some text)) ↔ ¬ EndsComment text := by
    intro text
    rw [EndsComment, ← Text.exists_line_infix (by decide) (by decide) text]
    simp only [IsJavadoc, remarkLines, Option.getD_some, List.mem_filter,
      List.mem_map, not_exists, not_and]
    constructor
    · intro h line hline hends
      have htrim : ['*', '/'] <:+: (Text.trimmed line).toList := by
        rw [Text.trimmed, String.toList_ofList, Text.infix_trim (by decide)]
        exact hends
      refine h (Text.trimmed line) ⟨⟨line, hline, rfl⟩, ?_⟩ htrim
      rw [Bool.not_eq_true', Bool.eq_false_iff]
      intro hempty
      rw [String.isEmpty_iff.1 hempty] at htrim
      exact absurd htrim (by decide)
    · rintro h _ ⟨⟨line, hline, rfl⟩, -⟩ hends
      rw [Text.trimmed, String.toList_ofList, Text.infix_trim (by decide)] at hends
      exact h line hline hends
  cases remarks with
  | none => exact iff_of_true (show IsJavadoc [] from isJavadoc_nil) fun _ h => absurd h (by simp)
  | some text => simpa using htext text

theorem endsComment_append_cons {front behind : String} {c : Char} (hc : c ∉ ['*', '/']) :
    EndsComment (front ++ String.singleton c ++ behind) ↔ EndsComment front ∨
    EndsComment behind := by
  have htext : (front ++ String.singleton c ++ behind).toList
      = front.toList ++ c :: behind.toList := by simp
  rw [EndsComment, htext, Text.infix_append_cons hc]
  rfl

/-- The shown name of a table ends a comment exactly if one of its parts
does. -/
theorem endsComment_display (table : TableRef) :
    EndsComment table.display ↔ ∃ part ∈ table.parts, EndsComment part := by
  have htext : table.display.toList = ['.'].intercalate (table.parts.map String.toList) :=
    String.toList_intercalate
  rw [EndsComment, htext, ← Text.exists_part_infix (by decide) (by decide)]
  simp [EndsComment]

/-- **What the documentation of a type ends a comment with.** -/
theorem isJavadoc_typeJavadoc : IsJavadoc (typeJavadoc table) ↔
    (∀ part ∈ table.table.parts, ¬ EndsComment part) ∧ ∀ text ∈ table.remarks,
    ¬ EndsComment text := by
  have hfirst : EndsComment ("Table: " ++ table.table.display) ↔ ∃ part ∈ table.table.parts,
      EndsComment part := by
    have htext : "Table: " ++ table.table.display
        = "Table:" ++ String.singleton ' ' ++ table.table.display := rfl
    rw [htext, endsComment_append_cons (by decide), endsComment_display]
    exact or_iff_right (by decide)
  rw [typeJavadoc, isJavadoc_taggedJavadoc_iff, isJavadoc_cons, hfirst, isJavadoc_remarkLines]
  simp only [not_exists, not_and]

/-- **What the documentation of a property ends a comment with.** -/
theorem isJavadoc_ofColumn : IsJavadoc (BeanProperty.ofColumn table c).doc ↔
    (∀ part ∈ table.table.parts, ¬ EndsComment part) ∧ ¬ EndsComment c.actualName ∧
      ∀ text ∈ c.remarks, ¬ EndsComment text := by
  have hfirst : EndsComment ("Column: " ++ table.table.display ++ "." ++ c.actualName) ↔
      (∃ part ∈ table.table.parts, EndsComment part) ∨ EndsComment c.actualName := by
    have htext : "Column: " ++ table.table.display ++ "." ++ c.actualName
        = "Column:" ++ String.singleton ' ' ++ table.table.display ++
        String.singleton '.' ++ c.actualName := rfl
    rw [htext, endsComment_append_cons (by decide), endsComment_append_cons (by decide),
      endsComment_display]
    exact or_congr_left (or_iff_right (by decide))
  show IsJavadoc (("Column: " ++ table.table.display ++ "." ++ c.actualName) ::
      remarkLines c.remarks) ↔ _
  rw [isJavadoc_cons, hfirst, isJavadoc_remarkLines]
  simp only [not_or, not_exists, not_and, and_assoc]

end

/-! ## Members and plugins -/

namespace JavaUnit

section

variable (named : List BuiltinPlugin) (table : TableModel) {kind : ModelKind}
  {u : JavaUnit} {lines : List String}
  {fields : List (List String)} {p : BeanProperty} {ps : List BeanProperty}

/-- Fields are documented as their properties are. -/
theorem documents_addFields (h : ∀ p ∈ ps, p.IsInert) (hu : u.Documents lines fields) :
    (addFields (named.map Plugin.builtin) table kind ps u).value.Documents lines
      (fields ++ ps.map fun p => taggedJavadoc p.doc) := by
  induction ps generalizing u fields with
  | nil => rwa [List.map_nil, List.append_nil]
  | cons p ps ih =>
    rw [addFields, Heard.value_bind,
      (PluginChain.passes_modelField named kind p.column).value_offer, List.map_cons,
      ← List.singleton_append, ← List.append_assoc]
    exact ih (fun q hq => h q (List.mem_cons_of_mem p hq))
      (hu.addField (h p List.mem_cons_self).field)

theorem documents_addGetter (h : p.IsInert) (hu : u.Documents lines fields) :
    (addGetter (named.map Plugin.builtin) table kind p u).value.Documents lines fields := by
  rw [addGetter, Heard.value_bind, Heard.value_pure]
  split
  next m hm =>
    obtain rfl := PluginChain.eq_of_mem_offer_accessor named (fun _ => rfl) (fun _ => rfl) hm
    exact (hu.addImports (List.forall_mem_singleton.2 h.type)).addMethod h.getter rfl
  · exact hu

theorem documents_addSetter (h : p.IsInert) (hu : u.Documents lines fields) :
    (addSetter (named.map Plugin.builtin) table kind p u).value.Documents lines fields := by
  rw [addSetter, Heard.value_bind, Heard.value_pure]
  split
  next m hm =>
    obtain rfl := PluginChain.eq_of_mem_offer_accessor named (fun _ => rfl) (fun _ => rfl) hm
    exact (hu.addImports (List.forall_mem_singleton.2 h.type)).addMethod h.setter rfl
  · exact hu

/-- Accessors are documented by the tag alone. -/
theorem documents_addAccessors (readOnly : Bool) (h : ∀ p ∈ ps, p.IsInert)
    (hu : u.Documents lines fields) :
    (addAccessors (named.map Plugin.builtin) table kind readOnly ps u).value.Documents
    lines fields := by
  induction ps generalizing u with
  | nil => exact hu
  | cons p ps ih =>
    have hp := h p List.mem_cons_self
    rw [value_addAccessors_cons]
    refine ih (fun q hq => h q (List.mem_cons_of_mem p hq)) ?_
    split
    · exact documents_addGetter named table hp hu
    · exact documents_addSetter named table hp (documents_addGetter named table hp hu)

/-- The documentation of one unit is that of another. -/
def KeepsDocuments (u v : JavaUnit) : Prop :=
  ∀ lines fields, u.Documents lines fields → v.Documents lines fields

/-- Plugins document nothing. -/
theorem exists_offer_documents {hook : Hook .unit} (u : JavaUnit)
    (h : ∀ p : BuiltinPlugin, ∀ part : JavaUnit, ∃ edited : JavaUnit,
      (Plugin.builtin p).judge hook table part = some edited ∧ part.KeepsDocuments edited) :
    ∃ v : JavaUnit, (PluginChain.offer (named.map Plugin.builtin) table hook u).value = some v ∧
      u.KeepsDocuments v := by
  refine @PluginChain.exists_value_offer _ .unit _ KeepsDocuments (fun _ _ _ => id)
    (fun h h' _ _ hu => h' _ _ (h _ _ hu)) table (fun plugin hplugin part => ?_) u
  obtain ⟨p, -, rfl⟩ := List.mem_map.1 hplugin
  exact h p part

theorem exists_offer_modelClass_documents (kind : ModelKind) (u : JavaUnit) :
    ∃ v : JavaUnit,
      (PluginChain.offer (named.map Plugin.builtin) table (.modelClass kind) u).value = some v ∧
      u.KeepsDocuments v := by
  refine exists_offer_documents named table u fun p part => ?_
  cases p with
  | lombok =>
    exact ⟨_, rfl, fun _ _ h =>
      (h.addImport (JavaType.isInert_named (by decide))).annotate (by decide)⟩
  | mapperMark => exact ⟨part, rfl, fun _ _ => id⟩

theorem exists_offer_clientInterface_documents (u : JavaUnit) :
    ∃ v : JavaUnit,
      (PluginChain.offer (named.map Plugin.builtin) table .clientInterface u).value = some v ∧
      u.KeepsDocuments v := by
  refine exists_offer_documents named table u fun p part => ?_
  cases p with
  | lombok => exact ⟨part, rfl, fun _ _ => id⟩
  | mapperMark =>
    exact ⟨_, rfl, fun _ _ h =>
      (h.addImport (JavaType.isInert_named (by decide))).annotate (by decide)⟩

end

end JavaUnit

/-! ## The units of a table -/

/-- **A table whose names can stand in code**: those of its types, its
properties and their types, and of the root classes hold no quotes and
slashes. -/
structure TableModel.HasInertNames (settings : Settings) (table : TableModel) : Prop where
  recordType : table.names.recordType.IsInert
  queryType : table.names.queryType.IsInert
  mapperType : table.names.mapperType.IsInert
  columns : ∀ c ∈ table.columns, IsInertText c.property.toList ∧ c.javaType.IsInert
  queryFields : ∀ f ∈ table.queryFields, IsInertText f.property.toList ∧ f.javaType.IsInert
  orderBy : ∀ name ∈ table.spec.orderByField, IsInertText name.toList
  offset : ∀ name ∈ table.spec.offsetField, IsInertText name.toList
  limit : ∀ name ∈ table.spec.limitField, IsInertText name.toList
  recordRoot : ∀ root ∈ settings.recordRoot, IsInertText root.typeName.toList
  queryRoot : ∀ root ∈ settings.queryRoot, IsInertText root.toList

section

variable {settings : Settings} {table : TableModel} (named : List BuiltinPlugin)

namespace Record

theorem isInert_properties (h : table.HasInertNames settings) :
    ∀ p ∈ properties settings table, p.IsInert := by
  intro p hp
  obtain ⟨c, hc, rfl⟩ := List.mem_map.1 hp
  obtain ⟨hname, htype⟩ := h.columns c (List.mem_of_mem_filter hc)
  exact ⟨hname, htype⟩

theorem hasInertCode_versionField : versionField.HasInertCode where
  name := by decide
  type := JavaType.isInert_named (by decide)
  unmarked := rfl
  initializer := by
    rintro value ⟨⟩
    decide

/-- The version field is documented by the tag alone. -/
theorem exists_documents_bare (h : table.HasInertNames settings) :
    ∃ fields, (bare settings table).Documents (typeJavadoc table) fields ∧
    ∀ doc ∈ fields, IsJavadoc doc := by
  have hstart : ({ kind := .class, type := table.names.recordType, javadoc := typeJavadoc table } :
    JavaUnit).Documents
      (typeJavadoc table) [] := JavaUnit.documents_bare h.recordType
  have hversion : ∀ {u : JavaUnit}, u.Documents (typeJavadoc table) [] →
      ∃ fields, ({ u.addSuperInterface (.named "java.io.Serializable") with
        fields := (u.addSuperInterface (.named "java.io.Serializable")).fields ++ [versionField] } :
          JavaUnit).Documents
          (typeJavadoc table) fields ∧ ∀ doc ∈ fields, IsJavadoc doc := by
    intro u hu
    exact ⟨_, (hu.addSuperInterface (JavaType.isInert_named (by decide))).withField
      hasInertCode_versionField,
      List.forall_mem_singleton.2 (isJavadoc_taggedJavadoc isJavadoc_nil)⟩
  rw [bare]
  cases hrecord : settings.recordRoot with
  | none =>
    simp only
    split
    · exact hversion hstart
    · exact ⟨_, hstart, List.forall_mem_nil _⟩
  | some root =>
    have hextended := hstart.extending (JavaType.isInert_named (h.recordRoot root hrecord))
    simp only
    split
    · exact hversion hextended
    · exact ⟨_, hextended, List.forall_mem_nil _⟩

theorem documents_addConstructors (settings : Settings) {ps : List BeanProperty}
    (h : ∀ p ∈ ps, p.IsInert)
    {u : JavaUnit} {lines : List String} {fields : List (List String)}
    (hu : u.Documents lines fields) :
    (addConstructors settings ps u).Documents lines fields := by
  have hfull : (fullConstructor u ps).HasInertCode := {
    name := hu.code.type.shortName
    returnType := fun t ht => absurd ht (by simp [fullConstructor])
    unmarked := rfl
    parameters := by
      intro parameter hparameter
      obtain ⟨p, hp, rfl⟩ := List.mem_map.1 hparameter
      exact ⟨rfl, (h p (List.mem_of_mem_filter hp)).type, (h p (List.mem_of_mem_filter hp)).name⟩
    body := by
      rintro lines ⟨⟩
      refine List.forall_mem_append.2 ⟨?_, fun line hline => ?_⟩
      · split
        · exact List.forall_mem_singleton.2 (by decide)
        · exact List.forall_mem_nil _
      · obtain ⟨p, hp, rfl⟩ := List.mem_map.1 hline
        exact BeanProperty.isInertText_assignment (h p (List.mem_of_mem_filter hp)).name }
  have hempty : (emptyConstructor u).HasInertCode := {
    name := hu.code.type.shortName
    returnType := fun t ht => absurd ht (by simp [emptyConstructor])
    unmarked := rfl
    parameters := List.forall_mem_nil _
    body := by
      rintro lines ⟨⟩
      exact List.forall_mem_singleton.2 (by decide) }
  rw [addConstructors]
  split
  · simp only
    split
    · exact hu.addMethod hfull rfl
    · exact (hu.addMethod hfull rfl).addMethod hempty rfl
  · exact hu

/-- **The comments of a record are whole exactly if no documentation of its
table or its properties ends a comment.** -/
theorem exists_sealsComments_iff (h : table.HasInertNames settings) :
    ∃ record, (generate settings table (named.map Plugin.builtin)).value =
        [.ofUnit .record settings.targetProject record] ∧
      (record.SealsComments ↔ IsJavadoc (typeJavadoc table) ∧ ∀ p ∈ properties settings table,
        IsJavadoc p.doc) := by
  have hproperties := isInert_properties h
  obtain ⟨fields, hbare, hfields⟩ := exists_documents_bare h
  obtain ⟨record, happroved, hkeeps⟩ :=
    JavaUnit.exists_offer_modelClass_documents named table .record
    (JavaUnit.addAccessors (named.map Plugin.builtin) table .record settings.immutable
      (properties settings table) (addConstructors settings (properties settings table)
        (JavaUnit.addFields (named.map Plugin.builtin) table .record (properties settings table)
          (bare settings table)).value)).value
  have hdocuments := hkeeps _ _
    (JavaUnit.documents_addAccessors named table settings.immutable hproperties
    (documents_addConstructors settings hproperties
      (JavaUnit.documents_addFields named table hproperties hbare)))
  refine ⟨record, ?_, ?_⟩
  · rw [generate]
    simp only [Heard.value_bind, Heard.value_pure, happroved]
    rfl
  · rw [hdocuments.sealsComments_iff, List.forall_mem_append, List.forall_mem_map]
    simp only [isJavadoc_taggedJavadoc_iff]
    exact and_congr_right fun _ => and_iff_right hfields

end Record

namespace QueryCondition

theorem isInert_properties (h : table.HasInertNames settings) :
    ∀ p ∈ properties settings table, p.IsInert := by
  have hstring : (JavaType.named "java.lang.String").IsInert := JavaType.isInert_named (by decide)
  have hinteger : (JavaType.named "java.lang.Integer").IsInert := JavaType.isInert_named (by decide)
  refine forall_mem_properties (fun f hf => ?_) (forall_mem_pagingProperties ?_ ?_ ?_)
  · obtain ⟨hname, htype⟩ := h.queryFields f hf
    exact ⟨hname, htype⟩
  · exact fun name hname => ⟨h.orderBy name hname, hstring⟩
  · exact fun name hname => ⟨h.offset name hname, hinteger⟩
  · exact fun name hname => ⟨h.limit name hname, hinteger⟩

/-- **The comments of a query condition are whole exactly if no documentation
of its table or its properties ends a comment.** -/
theorem exists_sealsComments_iff (h : table.HasInertNames settings) :
    ∃ query, (generate settings table (named.map Plugin.builtin)).value =
        [.ofUnit .queryCondition settings.targetProject query] ∧
      (query.SealsComments ↔ IsJavadoc (typeJavadoc table) ∧ ∀ p ∈ properties settings table,
        IsJavadoc p.doc) := by
  have hproperties := isInert_properties h
  have hbare : (bare settings table).Documents (typeJavadoc table) [] := by
    have hstart : ({ kind := .class, type := table.names.queryType, javadoc := typeJavadoc table } :
      JavaUnit).Documents
        (typeJavadoc table) [] := JavaUnit.documents_bare h.queryType
    rw [bare]
    cases hquery : settings.queryRoot with
    | none => exact hstart
    | some root => exact hstart.extending (JavaType.isInert_named (h.queryRoot root hquery))
  obtain ⟨query, happroved, hkeeps⟩ :=
    JavaUnit.exists_offer_modelClass_documents named table .queryCondition
    (JavaUnit.addAccessors (named.map Plugin.builtin) table .queryCondition false
      (properties settings table)
        (JavaUnit.addFields (named.map Plugin.builtin) table .queryCondition
          (properties settings table) (bare settings table)).value).value
  have hdocuments := hkeeps _ _ (JavaUnit.documents_addAccessors named table false hproperties
    (JavaUnit.documents_addFields named table hproperties hbare))
  refine ⟨query, ?_, ?_⟩
  · rw [generate]
    simp only [Heard.value_bind, Heard.value_pure, happroved]
    rfl
  · rw [hdocuments.sealsComments_iff, List.nil_append, List.forall_mem_map]
    simp only [isJavadoc_taggedJavadoc_iff]

end QueryCondition

namespace MapperInterface

theorem documents_addMethods {all : List (FragmentId × Method)}
    (h : ∀ entry ∈ all, entry.2.HasInertCode ∧ entry.2.javadoc = taggedJavadoc [])
    {u : JavaUnit} {lines : List String}
    {fields : List (List String)} (hu : u.Documents lines fields) :
    (addMethods table (named.map Plugin.builtin) all u).value.Documents lines fields := by
  induction all generalizing u with
  | nil => exact hu
  | cons entry all ih =>
    obtain ⟨statement, m⟩ := entry
    obtain ⟨hm, hdoc⟩ : m.HasInertCode ∧ m.javadoc = taggedJavadoc [] :=
      h (statement, m) List.mem_cons_self
    have htypes : ∀ t ∈ m.returnType.toList ++ m.parameters.map (·.type), t.IsInert := by
      refine List.forall_mem_append.2
        ⟨fun t ht => hm.returnType t (Option.mem_toList.1 ht), fun t ht => ?_⟩
      obtain ⟨p, hp, rfl⟩ := List.mem_map.1 ht
      exact (hm.parameters p hp).2.1
    rw [addMethods, Heard.value_bind, (PluginChain.passes_clientMethod named statement).value_offer]
    exact ih (fun other hother => h other (List.mem_cons_of_mem _ hother))
      ((hu.addImports htypes).addMethod hm hdoc)

theorem hasInertCode_declaration {name parameter : String} {returnType type : JavaType}
    (hname : IsInertText name.toList) (hreturn : returnType.IsInert)
    (hparameter : IsInertText parameter.toList)
    (htype : type.IsInert) :
    (declaration name returnType parameter type).HasInertCode ∧
      (declaration name returnType parameter type).javadoc = taggedJavadoc [] := by
  refine ⟨{ name := hname, unmarked := rfl, parameters := ?_, returnType := ?_, body := ?_ }, rfl⟩
  · rintro t ⟨⟩
    exact hreturn
  · exact List.forall_mem_singleton.2 ⟨rfl, htype, hparameter⟩
  · exact fun lines hlines => absurd hlines (by simp [declaration, Method.declaration])

theorem hasInertCode_methods (h : table.HasInertNames settings) :
    ∀ entry ∈ methods table, entry.2.HasInertCode ∧ entry.2.javadoc = taggedJavadoc [] := by
  have hint : (JavaType.named "int").IsInert := JavaType.isInert_named (by decide)
  have hlong : (JavaType.named "long").IsInert := JavaType.isInert_named (by decide)
  refine @forall_mem_methods table (fun m => m.HasInertCode ∧ m.javadoc = taggedJavadoc [])
    ?_ ?_ ?_ ?_ ?_
  · exact hasInertCode_declaration (by decide) hint (by decide) h.recordType
  · exact hasInertCode_declaration (by decide) hint (by decide) h.recordType.listOf
  · exact hasInertCode_declaration (by decide) hlong (by decide) h.queryType
  · exact hasInertCode_declaration (by decide) h.recordType (by decide) h.queryType
  · exact hasInertCode_declaration (by decide) h.recordType.listOf (by decide) h.queryType

/-- **The comments of a mapper interface are whole exactly if the
documentation of its table ends no comment.** -/
theorem exists_sealsComments_iff (h : table.HasInertNames settings) :
    ∃ mapper, (generate settings table (named.map Plugin.builtin)).value =
        [.ofUnit .mapperInterface settings.targetProject mapper] ∧
      (mapper.SealsComments ↔ IsJavadoc (typeJavadoc table)) := by
  obtain ⟨mapper, happroved, hkeeps⟩ := JavaUnit.exists_offer_clientInterface_documents named table
    (addMethods table (named.map Plugin.builtin) (methods table) (bare table)).value
  have hbare : (bare table).Documents (typeJavadoc table) [] := JavaUnit.documents_bare h.mapperType
  have hdocuments := hkeeps _ _ (documents_addMethods named (hasInertCode_methods h) hbare)
  refine ⟨mapper, ?_, ?_⟩
  · rw [generate]
    simp only [Heard.value_bind, Heard.value_pure, happroved]
    rfl
  · rw [hdocuments.sealsComments_iff]
    exact and_iff_left (List.forall_mem_nil _)

end MapperInterface

/-- The columns whose names and remarks the units of a table tell: those with
a property in the record or in the query condition. -/
def documentedColumns (settings : Settings) (table : TableModel) : List ColumnModel :=
  (Record.properties settings table ++ QueryCondition.properties settings table).filterMap
    (·.column)

/-- **What the properties of a table end comments with**, besides its
name. -/
theorem forall_isJavadoc_doc (hparts : ∀ part ∈ table.table.parts, ¬ EndsComment part) :
    ((∀ p ∈ Record.properties settings table, IsJavadoc p.doc) ∧
      ∀ p ∈ QueryCondition.properties settings table, IsJavadoc p.doc) ↔
    ∀ c ∈ documentedColumns settings table, ¬ EndsComment c.actualName ∧ ∀ text ∈ c.remarks,
    ¬ EndsComment text := by
  -- a property is documented by its column, or by a fixed text
  have hdoc : ∀ p ∈ Record.properties settings table ++ QueryCondition.properties settings table,
      (IsJavadoc p.doc ↔ ∀ c ∈ p.column, ¬ EndsComment c.actualName ∧ ∀ text ∈ c.remarks,
        ¬ EndsComment text) := by
    have hcolumn : ∀ c, IsJavadoc (BeanProperty.ofColumn table c).doc ↔
        ∀ d ∈ some c, ¬ EndsComment d.actualName ∧ ∀ text ∈ d.remarks, ¬ EndsComment text := by
      intro c
      rw [isJavadoc_ofColumn, and_iff_right hparts]
      simp
    have hfixed : ∀ {name type doc : String}, ¬ EndsComment doc →
        (IsJavadoc [doc] ↔ ∀ c ∈ (BeanProperty.mk name (.named type) none [doc]).column,
          ¬ EndsComment c.actualName ∧ ∀ text ∈ c.remarks, ¬ EndsComment text) :=
      fun hdoc => iff_of_true (List.forall_mem_singleton.2 hdoc) fun c hc => absurd hc (by simp)
    refine List.forall_mem_append.2 ⟨List.forall_mem_map.2 fun c _ => hcolumn c, ?_⟩
    refine QueryCondition.forall_mem_properties (fun f _ => hcolumn f.column)
      (QueryCondition.forall_mem_pagingProperties ?_ ?_ ?_)
    · exact fun name _ => hfixed (by decide)
    · exact fun name _ => hfixed (by decide)
    · exact fun name _ => hfixed (by decide)
  rw [← List.forall_mem_append, documentedColumns]
  constructor
  · intro h c hc
    obtain ⟨p, hp, hcolumn⟩ := List.mem_filterMap.1 hc
    exact (hdoc p hp).1 (h p hp) c hcolumn
  · intro h p hp
    exact (hdoc p hp).2 fun c hc => h c (List.mem_filterMap.2 ⟨p, hp, hc⟩)

/-- **Nothing that the database says leaves the comments of the generated
units exactly if it holds no end of a comment**: neither the parts of the name
of the table, nor its remarks, nor the names and remarks of its documented
columns. -/
theorem generateTable_sealsComments_iff (h : table.HasInertNames settings) :
    (∀ a ∈ (generateTable settings (named.map Plugin.builtin) table Generator.defaults).value,
      ∀ u, a.body = .java u → u.SealsComments) ↔
    (∀ part ∈ table.table.parts, ¬ EndsComment part) ∧ (∀ text ∈ table.remarks, ¬ EndsComment text) ∧
      ∀ c ∈ documentedColumns settings table, ¬ EndsComment c.actualName ∧ ∀ text ∈ c.remarks, ¬ EndsComment text := by
  obtain ⟨record, hrecords, hrecord⟩ := Record.exists_sealsComments_iff named h
  obtain ⟨query, hqueries, hquery⟩ := QueryCondition.exists_sealsComments_iff named h
  obtain ⟨mapper, hmappers, hmapper⟩ := MapperInterface.exists_sealsComments_iff named h
  rw [forall_unit_generateTable_iff hrecords hqueries hmappers, hrecord, hquery, hmapper,
    isJavadoc_typeJavadoc]
  constructor
  · rintro ⟨⟨htype, hrecord⟩, ⟨-, hquery⟩, -⟩
    exact ⟨htype.1, htype.2, (forall_isJavadoc_doc htype.1).1 ⟨hrecord, hquery⟩⟩
  · rintro ⟨hparts, hremarks, hcolumns⟩
    obtain ⟨hrecord, hquery⟩ := (forall_isJavadoc_doc hparts).2 hcolumns
    exact ⟨⟨⟨hparts, hremarks⟩, hrecord⟩, ⟨⟨hparts, hremarks⟩, hquery⟩, hparts, hremarks⟩

end

/-! ## A remark that ends its comment -/

/-- A table with one column and a remark about it. -/
def ordersRemarked (remark : String) : TableModel :=
  let column : ColumnModel :=
    { actualName := "code", property := "code", javaType := .named "java.lang.String", jdbcType := "VARCHAR",
      nullable := true, primaryKey := false, keySequence := 0, largeObject :=
      false, keyGeneration := .notGenerated,
      generatedAlways := false, typeHandler := none, properties := [], remarks :=
      some remark, defaultValue := none,
      length := 20, scale := 0, delimited := false }
  let spec : TableSpec := { tableName := "orders" }
  { table := .plain "orders", remarks := none, columns := [column], queryFields := [.ofColumn column false],
    names := .ofDomainObject {} "Orders" "orders", rules := .ofSpec spec false, spec }

theorem hasInertNames_ordersRemarked (remark : String) :
    (ordersRemarked remark).HasInertNames {} where
  recordType := JavaType.isInert_named (by decide)
  queryType := JavaType.isInert_named (by decide)
  mapperType := JavaType.isInert_named (by decide)
  columns := List.forall_mem_singleton.2
    ⟨show IsInertText "code".toList by decide, JavaType.isInert_named (by decide)⟩
  queryFields := List.forall_mem_singleton.2
    ⟨show IsInertText "code".toList by decide, JavaType.isInert_named (by decide)⟩
  orderBy := show ∀ name ∈ ({ tableName := "orders" } : TableSpec).orderByField,
    IsInertText name.toList by decide
  offset := show ∀ name ∈ ({ tableName := "orders" } : TableSpec).offsetField,
    IsInertText name.toList by decide
  limit := show ∀ name ∈ ({ tableName := "orders" } : TableSpec).limitField,
    IsInertText name.toList by decide
  recordRoot := fun _ h => absurd h (by simp)
  queryRoot := fun _ h => absurd h (by simp)

/-- A remark may hold quotes, stars and slashes. -/
theorem sealsComments_orders : (ordersRemarked "in \"boxes\" / ** items").HasInertNames {} ∧
    ∀ a ∈ (generateTable {} [] (ordersRemarked "in \"boxes\" / ** items") Generator.defaults).value,
      ∀ u, a.body = .java u → u.SealsComments :=
  ⟨hasInertNames_ordersRemarked _,
    (generateTable_sealsComments_iff [] (hasInertNames_ordersRemarked _)).2 (by decide +kernel)⟩

/-- **A remark with the end of a comment in it leaves the comment**: what it
holds behind that is code of the field that it documents. -/
theorem not_sealed_orders : ∃ record,
    .ofUnit .record "./generated/java" record ∈
        (generateTable {} [] (ordersRemarked "*/ int leaked; /*") Generator.defaults).value ∧
      ¬ record.SealsComments ∧ ∃ f ∈ record.fields, "int leaked;".toList <:+: codes (ofText f.render) := by
  obtain ⟨record, hrecord, hsealed⟩ :=
    Record.exists_sealsComments_iff [] (hasInertNames_ordersRemarked "*/ int leaked; /*")
  obtain ⟨found, hfound, -, front, hfields⟩ :=
    Record.exists_generate_nil {} (ordersRemarked "*/ int leaked; /*")
  obtain rfl : found = record :=
    ArtifactBody.java.inj (congrArg Artifact.body (List.cons.inj (hfound.symm.trans hrecord)).1)
  refine ⟨found, List.mem_append_left _ (hrecord ▸ List.mem_singleton_self _), fun h => ?_, ?_⟩
  · have hdoc := (hsealed.1 h).2 _
      (List.mem_map_of_mem (List.mem_filter.2 ⟨List.mem_cons_self, rfl⟩))
    exact absurd hdoc (by rw [isJavadoc_ofColumn]; decide +kernel)
  · rw [hfields]
    refine ⟨_, List.mem_append_right front (List.mem_map_of_mem List.mem_cons_self),
      Text.occursIn_iff.1 ?_⟩
    decide +kernel

end TableMapper
