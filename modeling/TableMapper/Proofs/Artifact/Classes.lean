import TableMapper.Proofs.Artifact.Document
import TableMapper.Proofs.Text.SortedSet

/-!
# The fields of the generated classes

**With plugins that leave fields as they are, the record of a table has a
field for every column whose property the root class does not declare, and
the query condition one for each of its properties** (`Record.exists_generate`,
`QueryCondition.exists_generate`). Imports, constructors and accessors leave the
fields alone.
-/

namespace TableMapper

namespace JavaUnit

/-! ## Building a class -/

section

variable (u : JavaUnit) (t : JavaType) (ts : List JavaType) (f : Field) (m : Method)

@[simp] theorem type_addImport : (u.addImport t).type = u.type := rfl

@[simp] theorem fields_addImport : (u.addImport t).fields = u.fields := rfl

@[simp] theorem methods_addImport : (u.addImport t).methods = u.methods := rfl

@[simp] theorem type_addImports : (u.addImports ts).type = u.type := by
  induction ts generalizing u with
  | nil => rfl
  | cons t ts ih => exact ih (u.addImport t)

@[simp] theorem fields_addImports : (u.addImports ts).fields = u.fields := by
  induction ts generalizing u with
  | nil => rfl
  | cons t ts ih => exact ih (u.addImport t)

@[simp] theorem methods_addImports : (u.addImports ts).methods = u.methods := by
  induction ts generalizing u with
  | nil => rfl
  | cons t ts ih => exact ih (u.addImport t)

@[simp] theorem type_addField : (u.addField f).type = u.type := rfl

@[simp] theorem fields_addField : (u.addField f).fields = u.fields ++ [f] := rfl

@[simp] theorem type_addMethod : (u.addMethod m).type = u.type := rfl

@[simp] theorem fields_addMethod : (u.addMethod m).fields = u.fields := rfl

@[simp] theorem methods_addMethod : (u.addMethod m).methods = u.methods ++ [m] := rfl

@[simp] theorem type_extending : (u.extending t).type = u.type := rfl

@[simp] theorem fields_extending : (u.extending t).fields = u.fields := rfl

@[simp] theorem type_addSuperInterface : (u.addSuperInterface t).type = u.type := by
  rw [addSuperInterface]
  split <;> rfl

@[simp] theorem type_annotate (mark : String) : (u.annotate mark).type = u.type := by
  unfold annotate
  split <;> rfl

@[simp] theorem fields_annotate (mark : String) : (u.annotate mark).fields = u.fields := by
  unfold annotate
  split <;> rfl

@[simp] theorem fields_addSuperInterface : (u.addSuperInterface t).fields = u.fields := by
  rw [addSuperInterface]
  split <;> rfl

end

section

variable {plugins : PluginChain} {table : TableModel} {kind : ModelKind}

theorem fields_addGetter (p : BeanProperty) (u : JavaUnit) :
    (addGetter plugins table kind p u).value.fields = u.fields ∧
      (addGetter plugins table kind p u).value.type = u.type := by
  rw [addGetter, Heard.value_bind, Heard.value_pure]
  split
  · exact ⟨by simp, by simp⟩
  · exact ⟨rfl, rfl⟩

theorem fields_addSetter (p : BeanProperty) (u : JavaUnit) :
    (addSetter plugins table kind p u).value.fields = u.fields ∧
      (addSetter plugins table kind p u).value.type = u.type := by
  rw [addSetter, Heard.value_bind, Heard.value_pure]
  split
  · exact ⟨by simp, by simp⟩
  · exact ⟨rfl, rfl⟩

/-- The accessors of one property, then the others. -/
theorem value_addAccessors_cons (readOnly : Bool) (p : BeanProperty)
    (ps : List BeanProperty) (u : JavaUnit) :
    (addAccessors plugins table kind readOnly (p :: ps) u).value =
      (addAccessors plugins table kind readOnly ps
        (if readOnly then (addGetter plugins table kind p u).value
          else (addSetter plugins table kind p
            (addGetter plugins table kind p u).value).value)).value := by
  cases readOnly <;> rfl

/-- Accessors leave the fields alone. -/
theorem fields_addAccessors (readOnly : Bool) (ps : List BeanProperty) (u : JavaUnit) :
    (addAccessors plugins table kind readOnly ps u).value.fields = u.fields ∧
      (addAccessors plugins table kind readOnly ps u).value.type = u.type := by
  induction ps generalizing u with
  | nil => exact ⟨rfl, rfl⟩
  | cons p ps ih =>
    obtain ⟨hfields, htype⟩ := @fields_addGetter plugins table kind p u
    obtain ⟨hfields', htype'⟩ := @fields_addSetter plugins table kind p
      (addGetter plugins table kind p u).value
    rw [value_addAccessors_cons, (ih _).1, (ih _).2]
    split
    · exact ⟨hfields, htype⟩
    · exact ⟨hfields'.trans hfields, htype'.trans htype⟩

/-- **One field for every property**, in their order. -/
theorem fields_addFields (hpasses : ∀ column, plugins.Passes (.modelField kind column))
    (ps : List BeanProperty)
    (u : JavaUnit) :
    (addFields plugins table kind ps u).value.fields = u.fields ++ ps.map (·.field) ∧
      (addFields plugins table kind ps u).value.type = u.type := by
  induction ps generalizing u with
  | nil => exact ⟨(List.append_nil _).symm, rfl⟩
  | cons p ps ih =>
    rw [addFields, Heard.value_bind, (hpasses p.column).value_offer, (ih _).1, (ih _).2]
    exact ⟨by simp, rfl⟩

end

end JavaUnit

/-! ## Records -/

namespace Record

variable (settings : Settings) (table : TableModel)

@[simp] theorem type_bare : (bare settings table).type = table.names.recordType := by
  rw [bare]
  cases settings.recordRoot <;> cases settings.serializable <;> rfl

theorem members_bare :
    (bare settings table).fields = (if settings.serializable then [versionField] else []) ∧
    (bare settings table).methods = [] := by
  rw [bare]
  cases settings.recordRoot <;> cases settings.serializable <;> exact ⟨rfl, rfl⟩

/-- The constructors of a record over some properties. -/
def constructors (settings : Settings) (unit : JavaUnit) (ps : List BeanProperty) : List Method :=
  if settings.hasConstructor then
    fullConstructor unit ps :: if settings.immutable then [] else [emptyConstructor unit]
  else []

theorem addConstructors_eq (ps : List BeanProperty) (u : JavaUnit) :
    addConstructors settings ps u
      = { u with methods := u.methods ++ constructors settings u ps } := by
  rw [addConstructors, constructors]
  cases settings.hasConstructor with
  | false => simp
  | true => cases settings.immutable <;> simp [JavaUnit.addMethod, emptyConstructor]

@[simp] theorem fields_addConstructors (ps : List BeanProperty) (u : JavaUnit) :
    (addConstructors settings ps u).fields = u.fields := by
  rw [addConstructors_eq]

@[simp] theorem type_addConstructors (ps : List BeanProperty) (u : JavaUnit) :
    (addConstructors settings ps u).type = u.type := by
  rw [addConstructors_eq]

/-- **What a record has fields for**, if the plugins leave fields as they
are and approve the class with its fields. -/
theorem exists_generate {plugins : PluginChain}
    (hfield : ∀ column, plugins.Passes (.modelField .record column))
    (hclass : ∀ u : JavaUnit, ∃ v :
      JavaUnit, (plugins.offer table (.modelClass .record) u).value = some v ∧
      v.fields = u.fields ∧ v.type = u.type) :
    ∃ record, (generate settings table plugins).value
      = [.ofUnit .record settings.targetProject record] ∧
      record.type = table.names.recordType ∧
      ∃ front, record.fields = front ++ (properties settings table).map (·.field) := by
  obtain ⟨hfields, htype⟩ :=
    @JavaUnit.fields_addFields plugins table .record hfield (properties settings table)
    (bare settings table)
  obtain ⟨record, happroved, hfields', htype'⟩ := hclass
    (JavaUnit.addAccessors plugins table .record settings.immutable (properties settings table)
      (addConstructors settings (properties settings table)
        (JavaUnit.addFields plugins table .record (properties settings table)
          (bare settings table)).value)).value
  refine ⟨record, ?_, ?_, (bare settings table).fields, ?_⟩
  · unfold generate
    simp only [Heard.value_bind, Heard.value_pure, happroved]
    rfl
  · rw [htype', (JavaUnit.fields_addAccessors _ _ _).2, type_addConstructors, htype, type_bare]
  · rw [hfields', (JavaUnit.fields_addAccessors _ _ _).1, fields_addConstructors, hfields]

theorem exists_generate_nil : ∃ record, (generate settings table []).value =
      [.ofUnit .record settings.targetProject record] ∧ record.type = table.names.recordType ∧
    ∃ front, record.fields = front ++ (properties settings table).map (·.field) :=
  exists_generate settings table (fun _ => .nil) fun u => ⟨u, rfl, rfl, rfl⟩

/-- **Every column has its field**, unless the root class declares its
property. -/
theorem field_mem_or_listed {record : JavaUnit} {front : List Field}
    (hrecord : record.fields = front ++ (properties settings table).map (·.field)) {c : ColumnModel}
    (hc : c ∈ table.columns) : (BeanProperty.ofColumn table c).field ∈ record.fields ∨
      ∃ root ∈ settings.recordRoot, c.property ∈ root.properties.map Text.trimmed := by
  by_cases hinherited :
    ((settings.recordRoot.map RootClass.inherited).getD []).contains c.property = true
  · right
    cases hroot : settings.recordRoot with
    | none => rw [hroot] at hinherited; cases hinherited
    | some root =>
      rw [hroot] at hinherited
      have hmem : c.property ∈ root.inherited := by simpa using hinherited
      rw [RootClass.inherited, Text.sortedSet, Text.mem_foldl_insertSorted] at hmem
      rcases hmem with hmem | hmem
      · exact ⟨root, rfl, (List.mem_filter.1 hmem).1⟩
      · exact absurd hmem List.not_mem_nil
  · left
    rw [hrecord]
    exact List.mem_append_right _ (List.mem_map_of_mem (List.mem_map_of_mem
      (List.mem_filter.2 ⟨hc, by simpa using hinherited⟩)))

theorem mem_fields_or_listed {record : JavaUnit} {front : List Field}
    (hrecord : record.fields = front ++ (properties settings table).map (·.field)) {c : ColumnModel}
    (hc : c ∈ table.columns) : (∃ f ∈ record.fields, f.name = c.property) ∨
      ∃ root ∈ settings.recordRoot, c.property ∈ root.properties.map Text.trimmed :=
  (field_mem_or_listed settings table hrecord hc).imp_left fun hmem => ⟨_, hmem, rfl⟩

end Record

/-! ## Query conditions -/

namespace QueryCondition

variable (settings : Settings) (table : TableModel)

theorem bare_eq : (bare settings table).fields = [] ∧
    (bare settings table).type = table.names.queryType := by
  rw [bare]
  cases settings.queryRoot <;> exact ⟨rfl, rfl⟩

/-- **What a query condition has fields for**, if the plugins leave fields as
they are and approve the class with its fields. -/
theorem exists_generate {plugins : PluginChain}
    (hfield : ∀ column, plugins.Passes (.modelField .queryCondition column))
    (hclass : ∀ u : JavaUnit, ∃ v :
      JavaUnit, (plugins.offer table (.modelClass .queryCondition) u).value = some v ∧
      v.fields = u.fields ∧ v.type = u.type) :
    ∃ query, (generate settings table plugins).value
      = [.ofUnit .queryCondition settings.targetProject query] ∧
      query.type = table.names.queryType ∧
      query.fields = (properties settings table).map (·.field) := by
  obtain ⟨hbare, hbareType⟩ := bare_eq settings table
  obtain ⟨hfields, htype⟩ :=
    @JavaUnit.fields_addFields plugins table .queryCondition hfield (properties settings table)
    (bare settings table)
  obtain ⟨query, happroved, hfields', htype'⟩ := hclass
    (JavaUnit.addAccessors plugins table .queryCondition false (properties settings table)
      (JavaUnit.addFields plugins table .queryCondition (properties settings table)
        (bare settings table)).value).value
  refine ⟨query, ?_, ?_, ?_⟩
  · rw [generate]
    simp only [Heard.value_bind, Heard.value_pure, happroved]
    rfl
  · rw [htype', (JavaUnit.fields_addAccessors _ _ _).2, htype, hbareType]
  · rw [hfields', (JavaUnit.fields_addAccessors _ _ _).1, hfields, hbare, List.nil_append]

section

variable {settings table} {P : BeanProperty → Prop}

/-- **What holds of the properties of a query condition** holds of those of
its fields, and of those for ordering and paging. -/
theorem forall_mem_properties (hfields : ∀ f ∈ table.queryFields, P (fieldProperty table f))
    (hpaging : ∀ p ∈ pagingProperties table, P p) : ∀ p ∈ properties settings table, P p := by
  refine List.forall_mem_append.2 ⟨List.forall_mem_map.2 hfields, ?_⟩
  split
  · exact List.forall_mem_nil _
  · exact hpaging

theorem forall_mem_pagingProperties
    (horder : ∀ name ∈ table.spec.orderByField,
      P { name, type := .named "java.lang.String", column := none, doc := ["Order-by clause"] })
    (hoffset : ∀ name ∈ table.spec.offsetField,
      P { name, type := .named "java.lang.Integer", column := none, doc := ["Row offset"] })
    (hlimit : ∀ name ∈ table.spec.limitField,
      P { name, type := .named "java.lang.Integer", column := none, doc := ["Maximum rows"] }) :
    ∀ p ∈ pagingProperties table, P p := by
  refine List.forall_mem_append.2 ⟨List.forall_mem_append.2 ⟨?_, ?_⟩, ?_⟩
  · exact List.forall_mem_map.2 fun name hname => horder name (Option.mem_toList.1 hname)
  · exact List.forall_mem_map.2 fun name hname => hoffset name (Option.mem_toList.1 hname)
  · exact List.forall_mem_map.2 fun name hname => hlimit name (Option.mem_toList.1 hname)

end

/-- The names of these fields. -/
theorem map_name_properties : ((properties settings table).map (·.field)).map (·.name) =
    table.queryFields.map (·.property) ++
      if settings.queryRoot.isSome then []
      else table.spec.orderByField.toList ++ table.spec.offsetField.toList ++
      table.spec.limitField.toList := by
  rw [properties, List.map_map, List.map_append, List.map_map]
  congr 1
  split
  · rfl
  · simp [pagingProperties, Function.comp_def, BeanProperty.field]

theorem exists_generate_nil : ∃ query, (generate settings table []).value =
      [.ofUnit .queryCondition settings.targetProject query] ∧ query.type = table.names.queryType ∧
    query.fields.map (·.name) = table.queryFields.map (·.property) ++
      if settings.queryRoot.isSome then []
      else table.spec.orderByField.toList ++ table.spec.offsetField.toList ++
      table.spec.limitField.toList := by
  obtain ⟨query, hvalue, htype, hfields⟩ :=
    exists_generate settings table (fun _ => .nil) fun u => ⟨u, rfl, rfl, rfl⟩
  exact ⟨query, hvalue, htype, by rw [hfields, map_name_properties]⟩

/-- A property of the query condition has its field. -/
theorem field_mem_properties {f : QueryField} (hf : f ∈ table.queryFields) :
    (fieldProperty table f).field ∈ (properties settings table).map (·.field) :=
  List.mem_map_of_mem (List.mem_append_left _ (List.mem_map_of_mem hf))

end QueryCondition

end TableMapper
