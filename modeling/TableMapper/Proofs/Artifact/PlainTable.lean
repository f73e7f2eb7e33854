import TableMapper.Proofs.Artifact.WellFormedUnits
import TableMapper.Proofs.Settings.Accepted

/-!
# Tables with plain names

The names of the artifacts of a table are its domain object behind the
packages of the settings, and the properties of the query condition are those
of its columns. So **a table that introspection finds is plain as soon as its
domain object, its properties and its column types are**
(`TableModel.HasPlainNames.isPlain`).
-/

namespace TableMapper

open Source

/-! ## What introspection derives -/

/-- **What introspection derives** of a table from its domain object and its
columns. -/
structure TableModel.IsDerived (settings : Settings) (table : TableModel) : Prop where
  names : ∃ runtimeTable,
    table.names = .ofDomainObject settings table.names.domainObject runtimeTable
  queryFields : table.queryFields = table.spec.queryFields table.columns
  types : ∀ c ∈ table.columns, ∃ name, c.javaType = .named name

theorem TableModel.IsDerived.mapperFile_eq {settings : Settings} {table : TableModel}
    (h : table.IsDerived settings) :
    table.names.mapperFile = table.names.domainObject ++ ArtifactNames.mapperSuffix ++ ".xml" := by
  obtain ⟨runtimeTable, hnames⟩ := h.names
  rw [hnames]
  rfl

namespace Introspection

variable {settings : Settings} {source : MetadataSource} {model : TableModel}

/-- The types of columns have no arguments. -/
theorem exists_javaType_resolveColumn (spec : TableSpec)
    (renamer : Option Renamer) (row : RawColumn) :
    ∃ name, (resolveColumn settings spec renamer row).javaType = .named name := by
  rw [resolveColumn]
  dsimp only
  split
  · exact ⟨_, rfl⟩
  · cases hresolved : (typeOptions settings).resolve? row with
    | none => exact ⟨_, rfl⟩
    | some resolved =>
      obtain ⟨type, -, h⟩ := Option.bind_eq_some_iff.1 hresolved
      obtain ⟨java, -, h⟩ := Option.bind_eq_some_iff.1 h
      cases h
      exact ⟨java, rfl⟩

theorem map_javaType_markKeys (keys : List KeyColumn) (columns : List ColumnModel) :
    (markKeys keys columns).map (·.javaType) = columns.map (·.javaType) := by
  refine map_markKeys (fun c keys => ?_) keys columns
  rw [marked]
  cases keys.getLast? <;> rfl

/-- A model of several specifications is one of them. -/
theorem exists_spec_of_mem_introspectAll {specs : List TableSpec} {found : Warned (List TableModel)}
    (h : introspectAll settings source specs = .ok found) (hmodel : model ∈ found.value) :
    ∃ spec ∈ specs, ∃ part, introspect settings spec source = .ok part ∧ model ∈ part.value := by
  induction specs generalizing found with
  | nil =>
    cases h
    exact absurd hmodel List.not_mem_nil
  | cons spec rest ih =>
    obtain ⟨first, hfirst, h⟩ := Except.exists_of_bind_eq_ok h
    obtain ⟨others, hothers, h⟩ := Except.exists_of_bind_eq_ok h
    cases h
    rcases List.mem_append.1 hmodel with hmem | hmem
    · exact ⟨spec, List.mem_cons_self, first, hfirst, hmem⟩
    · obtain ⟨spec', hspec, hpart⟩ := ih hothers hmem
      exact ⟨spec', List.mem_cons_of_mem _ hspec, hpart⟩

/-- **Every model that introspection finds is derived.** -/
theorem isDerived_of_mem_introspectAll {specs : List TableSpec} {found : Warned (List TableModel)}
    (h : introspectAll settings source specs = .ok found) (hmodel : model ∈ found.value) :
    model.IsDerived settings := by
  obtain ⟨spec, -, part, hpart, hmodel⟩ := exists_spec_of_mem_introspectAll h hmodel
  obtain ⟨rows, built, -, hbuilt, hvalue, -⟩ := exists_built_of_mem_introspect hpart hmodel
  obtain ⟨renamer, ignores, -, hcolumns⟩ := exists_columns_of_buildTable hbuilt hvalue
  obtain ⟨domainObject, hnames⟩ := exists_names_of_ofColumns hcolumns
  obtain ⟨-, hmarked, hspec, -, hfields⟩ := ofColumns_eq_ok hcolumns
  refine ⟨⟨_, by rw [hnames]; rfl⟩, by rw [hfields, hspec, hmarked], fun c hc => ?_⟩
  have htype : c.javaType
      ∈ (keptColumns settings spec renamer ignores (rowsOf model.table rows)).map (·.javaType) := by
    rw [← map_javaType_markKeys, ← hmarked]
    exact List.mem_map_of_mem hc
  obtain ⟨d, hd, heq⟩ := List.mem_map.1 htype
  obtain ⟨row, -, rfl⟩ := List.mem_map.1 hd
  rw [← heq]
  exact exists_javaType_resolveColumn spec renamer row

end Introspection

/-! ## Plain names -/

/-- Documentation without slashes does not end its comment. -/
theorem isJavadoc_of_not_mem {lines : List String} (h : ∀ line ∈ lines, '/' ∉ line.toList) :
    IsJavadoc lines :=
  fun line hline => not_infix_of_not_mem (h line hline)

/-- **A table whose names are plain**: the domain object and the properties
are identifiers, the types are dotted names that may have the brackets of an
array, and no line of documentation ends its comment. -/
structure TableModel.HasPlainNames (table : TableModel) : Prop where
  domainObject : IsIdentifier table.names.domainObject.toList
  properties : ∀ c ∈ table.columns, IsIdentifier c.property.toList
  types : ∀ c ∈ table.columns, IsTypeName c.javaType.qualifiedName.toList
  orderBy : ∀ name ∈ table.spec.orderByField, IsIdentifier name.toList
  offset : ∀ name ∈ table.spec.offsetField, IsIdentifier name.toList
  limit : ∀ name ∈ table.spec.limitField, IsIdentifier name.toList
  javadoc : IsJavadoc (typeJavadoc table)
  columnJavadoc : ∀ c ∈ table.columns, IsJavadoc (BeanProperty.ofColumn table c).doc

theorem IsIdentifier.append {name more : List Char} (h : IsIdentifier name)
    (hmore : ∀ c ∈ more, TableMapper.isNameChar c = true) : IsIdentifier (name ++ more) := by
  obtain ⟨c, rest, rfl, hc, hrest⟩ := h
  exact ⟨c, rest ++ more, rfl, hc, List.forall_mem_append.2 ⟨hrest, hmore⟩⟩

namespace ArtifactNames

variable {settings : Settings} {domainObject : String}

/-- **The types of the artifacts of a plain domain object are classes.** -/
theorem isClass_ofDomainObject (hsettings : settings.Accepted)
    (h : IsIdentifier domainObject.toList)
    (runtimeTable : String) :
    (ofDomainObject settings domainObject runtimeTable).recordType.IsClass ∧
      (ofDomainObject settings domainObject runtimeTable).queryType.IsClass ∧
      (ofDomainObject settings domainObject runtimeTable).mapperType.IsClass := by
  refine ⟨⟨_, _, rfl, hsettings.modelPackage, h⟩,
    ⟨_, domainObject ++ querySuffix, ?_, hsettings.queryPackage, ?_⟩,
    ⟨_, domainObject ++ mapperSuffix, ?_, hsettings.clientPackage, ?_⟩⟩
  · rw [← String.append_assoc]
    rfl
  · rw [String.toList_append]
    exact h.append (by decide)
  · rw [← String.append_assoc]
    rfl
  · rw [String.toList_append]
    exact h.append (by decide)

end ArtifactNames

namespace TableModel.HasPlainNames

variable {settings : Settings} {table : TableModel}

theorem isPlain_ofColumn (h : table.HasPlainNames) (hderived : table.IsDerived settings)
    {c : ColumnModel}
    (hc : c ∈ table.columns) : (BeanProperty.ofColumn table c).IsPlain where
  name := h.properties c hc
  type := by
    obtain ⟨name, hname⟩ := hderived.types c hc
    have htype := h.types c hc
    show c.javaType.IsPlain
    rw [hname] at htype ⊢
    exact JavaType.isPlain_named htype
  doc := h.columnJavadoc c hc

theorem isPlain_fieldProperty (h : table.HasPlainNames) (hderived : table.IsDerived settings)
    {f : QueryField}
    (hf : f ∈ table.queryFields) : (QueryCondition.fieldProperty table f).IsPlain := by
  rw [hderived.queryFields] at hf
  obtain ⟨c, hc, multiValue, rfl⟩ := TableSpec.exists_column_of_mem_queryFields hf
  have hplain := h.isPlain_ofColumn hderived hc
  cases multiValue with
  | false => exact hplain
  | true =>
    obtain ⟨name, hname⟩ := hderived.types c hc
    refine ⟨?_, ?_, hplain.doc⟩
    · show IsIdentifier (c.property ++ "List").toList
      rw [String.toList_append]
      exact hplain.name.append (by decide)
    · have htype := h.types c hc
      show (JavaType.listOf c.javaType).IsPlain
      rw [hname] at htype ⊢
      exact JavaType.isPlain_listOf htype

/-- The properties for ordering and paging are plain. -/
theorem isPlain_pagingProperties (h : table.HasPlainNames) :
    ∀ p ∈ QueryCondition.pagingProperties table, p.IsPlain := by
  have hplain : ∀ {name type doc : String}, IsIdentifier name.toList → isPackageName type = true →
      '/' ∉ doc.toList → (BeanProperty.mk name (.named type) none [doc]).IsPlain :=
    fun hname htype hdoc => ⟨hname, JavaType.isPlain_of_isPackageName htype,
      isJavadoc_of_not_mem (List.forall_mem_singleton.2 hdoc)⟩
  refine QueryCondition.forall_mem_pagingProperties ?_ ?_ ?_
  · exact fun name hname => hplain (h.orderBy name hname) (by decide) (by decide)
  · exact fun name hname => hplain (h.offset name hname) (by decide) (by decide)
  · exact fun name hname => hplain (h.limit name hname) (by decide) (by decide)

/-- **A table with plain names that introspection finds is plain.** -/
theorem isPlain (h : table.HasPlainNames) (hderived : table.IsDerived settings)
    (hsettings : settings.Accepted) :
    table.IsPlain := by
  obtain ⟨runtimeTable, hnames⟩ := hderived.names
  obtain ⟨hrecord, hquery, hmapper⟩ :=
    ArtifactNames.isClass_ofDomainObject hsettings h.domainObject runtimeTable
  rw [← hnames] at hrecord hquery hmapper
  exact {
    recordType := hrecord
    queryType := hquery
    mapperType := hmapper
    columns := fun c hc => h.isPlain_ofColumn hderived hc
    queryFields := fun f hf => h.isPlain_fieldProperty hderived hf
    paging := h.isPlain_pagingProperties
    javadoc := h.javadoc }

end TableModel.HasPlainNames

end TableMapper
