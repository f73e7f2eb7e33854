import TableMapper.Proofs.Artifact.FilterMeaning
import TableMapper.Proofs.Artifact.NamedProperties
import TableMapper.Proofs.Run.GeneratedArtifacts
import TableMapper.Proofs.Table.Roles

/-!
# What comes of a role

A filter should come to a field of the query condition and a predicate, the
soft-delete column to a predicate that always counts, a timestamp to a value
of its own in batch inserts, and the generated key to its retrieval by the
insert (`RoleSetting.TakesEffect`). **A setting whose column is there takes
effect, unless it is a filter on the soft-delete column, a timestamp that the
database computes, or a key where no insert is wanted**
(`RoleSetting.takesEffect_or_isExempt`).
-/

namespace TableMapper

open Markup (Element)

/-! ## Parts of the artifacts of a table -/

/-- **The query condition among some artifacts has a field.** -/
def HasQueryField (artifacts : List Artifact) (name : String) (type : JavaType) : Prop :=
  ∃ a ∈ artifacts, a.kind = .queryCondition ∧
    ∃ unit, a.body = .java unit ∧ ∃ f ∈ unit.fields, f.name = name ∧ f.type = type

/-- **A mapper document among some artifacts has an element** with an id, and
something holds of it. -/
def HasElement (artifacts : List Artifact) (id : FragmentId) (P : Element → Prop) : Prop :=
  ∃ a ∈ artifacts, ∃ document, a.body = .markup document ∧
    ∃ e, document.root.elementById? id.name = some e ∧ P e

section

variable {settings : Settings} {table : TableModel} (named : List BuiltinPlugin)

/-- The properties of the query condition have their fields. -/
theorem hasQueryField_of_mem {q : QueryField} (hq : q ∈ table.queryFields) :
    HasQueryField (generateTable settings (named.map Plugin.builtin) table Generator.defaults).value
      q.property q.javaType := by
  obtain ⟨query, hvalue, -, hfields⟩ := QueryCondition.exists_generate settings table
    (PluginChain.passes_modelField named .queryCondition)
    (PluginChain.exists_offer_modelClass named table .queryCondition)
  refine ⟨.ofUnit .queryCondition settings.targetProject query, ?_, rfl, query, rfl, _,
    hfields ▸ QueryCondition.field_mem_properties settings table hq, rfl, rfl⟩
  rw [Generator.defaults, value_generateTable_cons, value_generateTable_cons]
  exact List.mem_append_right _ (List.mem_append_left _ (hvalue ▸ List.mem_singleton_self _))

/-- The document among the artifacts has exactly the fragments of the table. -/
theorem hasElement_iff {id : FragmentId} {P : Element → Prop} :
    HasElement
        (generateTable settings (named.map Plugin.builtin) table Generator.defaults).value id P ↔
      ∃ e, MapperDocument.fragment? table id = some e ∧ P e := by
  have hvalue := MapperDocument.value_generate (PluginChain.passes_mapperElement named)
    (PluginChain.passes_mapperDocument named) settings table
  simp only [Generator.defaults, value_generateTable_cons, HasElement, List.mem_append]
  constructor
  · rintro ⟨a, hrecord | hquery | hmapper | hdocument | hnone, document, hbody, e, he, hP⟩
    · obtain ⟨unit, -, rfl⟩ := List.mem_map.1 hrecord
      cases hbody
    · obtain ⟨unit, -, rfl⟩ := List.mem_map.1 hquery
      cases hbody
    · obtain ⟨unit, -, rfl⟩ := List.mem_map.1 hmapper
      cases hbody
    · replace hdocument : a ∈ (MapperDocument.generate settings table MapperDocument.fragment?
        (named.map Plugin.builtin)).value := hdocument
      rw [hvalue, List.mem_singleton] at hdocument
      subst hdocument
      cases hbody
      exact ⟨e, (MapperDocument.elementById?_document table id).symm.trans he, hP⟩
    · exact absurd hnone List.not_mem_nil
  · rintro ⟨e, he, hP⟩
    have hdocument : (.ofDocument settings.mapperProject settings.mapperPackage
        table.names.mapperFile (MapperDocument.document table) : Artifact) ∈
          (MapperDocument.generate settings table MapperDocument.fragment?
            (named.map Plugin.builtin)).value :=
      hvalue ▸ List.mem_singleton_self _
    exact ⟨_, .inr (.inr (.inr (.inl hdocument))), MapperDocument.document table, rfl, e,
      (MapperDocument.elementById?_document table id).trans he, hP⟩

end

/-! ## Effects -/

namespace RoleSetting

/-- **An optional predicate** on a column: it counts when its property is not
null, and compares the column. -/
structure IsComparison (q : QueryField) (p : Element) : Prop where
  name : p.name = "if"
  test : ∃ more, p.attribute? "test" = some (q.property ++ " != null" ++ more)
  comparison : p.children.head? = some (.text ("and " ++ q.column.escapedName ++
    if q.multiValue then " in" else " = " ++ q.column.parameter none))

/-- **A value with the current time in its place when it is null**, among the
values of an item. -/
def HasTimeBranch (c : ColumnModel) (e : Element) : Prop :=
  ∃ trim : Element, e.children = [trim.toNode] ∧
    (Fragments.chooseDefault ("item." ++ c.property) (c.parameter (some "item") ++ ",")
      "now(),").toNode ∈ trim.children

/-- **An insert retrieves the key**: by the driver, or by a statement in front
of the insert. -/
def Retrieves (k : GeneratedKey) (c : ColumnModel) (e : Element) : Prop :=
  if k.usesDriver then
    e.attribute? "useGeneratedKeys" = some "true" ∧ e.attribute? "keyProperty" = some c.property
  else
    ∃ select : Element, e.children.head? = some select.toNode ∧ select.name = "selectKey" ∧
      select.attribute? "keyProperty" = some c.property ∧
      select.children = [.text k.resolvedStatement]

/-- **What the artifacts of a table have for a role** that a column plays. -/
def ShowsIn (artifacts : List Artifact) (c : ColumnModel) : RoleSetting → Prop
  | filter f =>
    let q := QueryField.ofColumn c f.multiValue
    HasQueryField artifacts q.property q.javaType ∧
      HasElement artifacts .condition fun e => ∃ p :
      Element, p.toNode ∈ e.children ∧ IsComparison q p
  | softDelete s =>
    HasElement artifacts .condition fun e => e.children.head?
        = some (.text (c.escapedName ++ " = " ++ s.aliveValue))
  | created _ | modified _ => HasElement artifacts .batchSetValue (HasTimeBranch c)
  | key k => HasElement artifacts .insert (Retrieves k c)

/-- **A setting takes effect in the artifacts of a table.** -/
def TakesEffect (table : TableModel) (artifacts : List Artifact) (role : RoleSetting) : Prop :=
  ∃ c ∈ table.columns, role.names c.actualName = true ∧ role.ShowsIn artifacts c

/-- **Where a setting has no effect although its column is there**: the
soft-delete column is compared in every case and so is not filtered by, what
the database computes is not inserted, and without an insert no key is
retrieved, but by the insert of a list if the driver returns it. -/
def IsExempt (table : TableModel) (artifacts : List Artifact) : RoleSetting → Prop
  | filter f =>
    ∃ s, table.spec.softDelete = some s ∧ Text.sameIgnoringCase f.column s.column = true ∧
      (softDelete s).TakesEffect table artifacts
  | softDelete _ => False
  | created name | modified name =>
    (∃ c ∈ table.columns, c.isNamed name = true) ∧ ∀ c ∈ table.columns, c.isNamed name = true →
      c.isGenerated = true
  | key k =>
    table.spec.enableInsert = false ∧ ∃ c ∈ table.columns, k.matchesColumn c.actualName = true ∧
      (k.usesDriver = true → table.spec.enableBatchInsert = true →
        HasElement artifacts .batchInsert (Retrieves k c))

section

variable {table : TableModel}

/-- The first of some columns, if there is one. -/
theorem exists_first {columns : List ColumnModel} {p : ColumnModel → Bool}
    (h : ∃ c ∈ columns, p c = true) :
    ∃ c ∈ columns, p c = true ∧ columns.find? p = some c := by
  obtain ⟨c, hfound⟩ := Option.isSome_iff_exists.1 (List.find?_isSome.2 h)
  exact ⟨c, List.mem_of_find?_eq_some hfound, List.find?_some hfound, hfound⟩

/-! ### Filters -/

/-- The predicate of a property of the query condition is optional. -/
theorem isComparison_fieldPredicate (q : QueryField) :
    IsComparison q (Fragments.fieldPredicate q) := by
  have hshape : Fragments.fieldPredicate q = if q.multiValue then _ else _ := rfl
  cases hmulti : q.multiValue with
  | false =>
    rw [hmulti, if_neg (by decide)] at hshape
    rw [hshape]
    refine ⟨rfl, ⟨"", by rw [String.append_empty]; rfl⟩, ?_⟩
    rw [hmulti, if_neg (by decide), ← String.append_assoc]
    rfl
  | true =>
    rw [hmulti, if_pos rfl] at hshape
    rw [hshape]
    refine ⟨rfl, ⟨" and " ++ q.property ++ ".size() > 0", ?_⟩, ?_⟩
    · rw [← String.append_assoc, ← String.append_assoc]
      rfl
    · rw [hmulti]
      rfl

/-- **A filter whose column is there** is on the soft-delete column or has a
property of the query condition. -/
theorem isSoftDelete_or_mem_queryFields {spec : TableSpec} {columns : List ColumnModel}
    {f : FilterColumn}
    (hf : f ∈ spec.filters) (hnamed : ∃ c ∈ columns, c.isNamed f.column = true) :
    ∃ c ∈ columns, c.isNamed f.column = true ∧
      (spec.isSoftDelete c = true ∨ .ofColumn c f.multiValue ∈ spec.queryFields columns) := by
  obtain ⟨c, hc, hname, hfound⟩ := exists_first hnamed
  refine ⟨c, hc, hname, ?_⟩
  cases hsoft : spec.isSoftDelete c with
  | true => exact .inl rfl
  | false =>
    have hfilter : (c, f.multiValue) ∈ spec.filterColumns columns := by
      rw [TableSpec.filterColumns, if_neg (by simpa using List.ne_nil_of_mem hf)]
      exact List.mem_filterMap.2 ⟨f, hf, by rw [hfound]; rfl⟩
    exact .inr (List.mem_map.2
      ⟨(c, f.multiValue), List.mem_filter.2 ⟨hfilter, by simp [hsoft]⟩, rfl⟩)

/-! ### The soft-delete column -/

/-- **The soft-delete column is compared first**, and in every case. -/
theorem exists_alivePredicate? {s : SoftDelete} (hs : table.spec.softDelete = some s)
    (hnamed : ∃ c ∈ table.columns, c.isNamed s.column = true) :
    ∃ c ∈ table.columns, c.isNamed s.column = true ∧
      (Fragments.condition table).children.head?
        = some (.text (c.escapedName ++ " = " ++ s.aliveValue)) := by
  obtain ⟨c, hc, hname, hfound⟩ := exists_first hnamed
  have halive : Fragments.alivePredicate? table
      = some (c.escapedName ++ " = " ++ s.aliveValue) := by
    rw [Fragments.alivePredicate?, hs]
    show ((table.columns.find? (·.isNamed s.column)).bind fun c => some _) = _
    rw [hfound]
    rfl
  refine ⟨c, hc, hname, ?_⟩
  rw [Evaluation.children_condition, halive]
  rfl

/-! ### Timestamps -/

/-- **A timestamp that inserts write has the current time** in its place when
it is null. -/
theorem hasTimeBranch_batchSetValue {c : ColumnModel} (hc : c ∈ table.columns)
    (htime : table.isTimestamp c = true)
    (hwritten : c.isGenerated = false) : HasTimeBranch c (Fragments.batchSetValue table) := by
  have hvalue : Reference.valueNode table c = (Fragments.chooseDefault ("item." ++ c.property)
      (c.parameter (some "item") ++ ",") "now(),").toNode := by
    rw [Reference.valueNode, Fragments.defaultValue?, if_pos htime]
    rfl
  refine ⟨_, rfl, ?_⟩
  rw [Reference.foldl_addValue, ← hvalue]
  exact List.mem_map_of_mem (List.mem_filter.2 ⟨hc, by simpa using hwritten⟩)

/-- A choice has one text for null. -/
theorem fallback_eq {path path' value value' fallback fallback' : String}
    (h : (Fragments.chooseDefault path value fallback).toNode =
      (Fragments.chooseDefault path' value' fallback').toNode) : fallback = fallback' := by
  have hchildren := (Markup.Node.element.inj h).2.2
  have hotherwise := (List.cons.inj (List.cons.inj hchildren).2).1
  exact Markup.Node.text.inj (List.cons.inj (Markup.Node.element.inj hotherwise).2.2).1

/-- Where there is the current time some column that inserts write has it for
its default. -/
theorem exists_default_of_hasTimeBranch {c : ColumnModel}
    (h : HasTimeBranch c (Fragments.batchSetValue table)) :
    ∃ d ∈ table.insertableColumns, ∃ fallback, Fragments.defaultValue? table d = some fallback ∧
      fallback ++ "," = "now()," := by
  obtain ⟨trim, htrim, hbranch⟩ := h
  rw [Fragments.batchSetValue, Reference.foldl_addValue] at htrim
  have hchildren : table.insertableColumns.map (Reference.valueNode table) = trim.children :=
    (Markup.Node.element.inj (List.cons.inj htrim).1).2.2
  rw [← hchildren] at hbranch
  obtain ⟨d, hd, hvalue⟩ := List.mem_map.1 hbranch
  rw [Reference.valueNode] at hvalue
  cases hdefault : Fragments.defaultValue? table d with
  | none =>
    rw [hdefault] at hvalue
    cases hvalue
  | some fallback =>
    rw [hdefault] at hvalue
    exact ⟨d, hd, fallback, hdefault, fallback_eq hvalue⟩

/-- A timestamp takes effect, or the database computes it. -/
theorem hasTimeBranch_or_isGenerated {name : String}
    (htime : ∀ c : ColumnModel, c.isNamed name = true → table.isTimestamp c = true) :
    (∃ c ∈ table.columns, c.isNamed name = true ∧ HasTimeBranch c (Fragments.batchSetValue table)) ∨
      ∀ c ∈ table.columns, c.isNamed name = true → c.isGenerated = true := by
  by_cases hall : ∀ c ∈ table.columns, c.isNamed name = true → c.isGenerated = true
  · exact .inr hall
  · obtain ⟨c, hc, hname, hwritten⟩ : ∃ c ∈ table.columns, c.isNamed name = true ∧
        ¬ c.isGenerated = true := by
      simpa using hall
    exact .inl ⟨c, hc, hname,
      hasTimeBranch_batchSetValue hc (htime c hname) (by simpa using hwritten)⟩

/-! ### The generated key -/

/-- The column of the key is the first one that it names. -/
theorem exists_generatedKeyColumn? {spec : TableSpec} (hspec : Introspection.KeepsTo table spec)
    {k : GeneratedKey}
    (hk : spec.generatedKey = some k)
    (hnamed : ∃ c ∈ table.columns, k.matchesColumn c.actualName = true) :
    ∃ c ∈ table.columns, k.matchesColumn c.actualName = true ∧
    table.generatedKeyColumn? = some c := by
  have hmatches : ∀ c ∈ table.columns,
      (c.keyGeneration != .notGenerated) = k.matchesColumn c.actualName :=
    fun c hc => by rw [hspec.keyGeneration c hc, Introspection.keyGenerationOf_ne hk]
  obtain ⟨d, hd, hname⟩ := hnamed
  have hgenerated : ∃ c ∈ table.columns, (c.keyGeneration != .notGenerated) = true :=
    ⟨d, hd, (hmatches d hd).trans hname⟩
  obtain ⟨c, hc, hgenerated, hfound⟩ := exists_first hgenerated
  exact ⟨c, hc, (hmatches c hc).symm.trans hgenerated, hfound⟩

section

variable {k : GeneratedKey} {c : ColumnModel} (hk : table.spec.generatedKey = some k)
  (hc : table.generatedKeyColumn? = some c)
include hk hc

/-- What the column of the key adds to an insert. -/
theorem withGeneratedKey_eq (batch : Bool) (e : Element) :
    Statements.withGeneratedKey table batch e =
    if k.usesDriver then (e.attr "useGeneratedKeys" "true").attr "keyProperty" c.property
    else if batch then e
    else { e with children := (Statements.selectKey k c).toNode :: e.children } := by
  rw [Statements.withGeneratedKey, hk, hc]

/-- **The insert retrieves the key.** -/
theorem exists_insert_retrieves (hinsert : table.rules.insert = true) :
    ∃ e, Statements.insert? table = some e ∧ Retrieves k c e := by
  refine ⟨_, if_pos hinsert, ?_⟩
  rw [withGeneratedKey_eq hk hc, Retrieves]
  cases k.usesDriver with
  | true => exact ⟨rfl, rfl⟩
  | false => exact ⟨Statements.selectKey k c, rfl, rfl, rfl, rfl⟩

/-- The insert of a list retrieves a key that the driver returns. -/
theorem exists_batchInsert_retrieves (hdriver : k.usesDriver = true)
    (hinsert : table.rules.batchInsert = true) :
    ∃ e, Statements.batchInsert? table = some e ∧ Retrieves k c e := by
  refine ⟨_, if_pos hinsert, ?_⟩
  rw [withGeneratedKey_eq hk hc, Retrieves, if_pos hdriver, if_pos hdriver]
  exact ⟨rfl, rfl⟩

end

end

/-! ### All roles -/

variable {settings : Settings} {table : TableModel} {spec : TableSpec}

/-- **A setting whose column is there takes effect, or it is exempt.** -/
theorem takesEffect_or_isExempt (named : List BuiltinPlugin)
    (hspec : Introspection.KeepsTo table spec)
    {role : RoleSetting} (hrole : role ∈ spec.roleSettings)
    (hnamed : ∃ c ∈ table.columns, role.names c.actualName = true) :
    role.TakesEffect table
      (generateTable settings (named.map Plugin.builtin) table Generator.defaults).value ∨
      role.IsExempt table (generateTable settings (named.map Plugin.builtin) table
        Generator.defaults).value := by
  have hsoftDelete : ∀ s, spec.softDelete = some s →
      (∃ c ∈ table.columns, c.isNamed s.column = true) →
      (softDelete s).TakesEffect table
        (generateTable settings (named.map Plugin.builtin) table Generator.defaults).value := by
    intro s hs hnamed
    obtain ⟨c, hc, hname, hhead⟩ := exists_alivePredicate? (hspec.spec_eq ▸ hs) hnamed
    exact ⟨c, hc, hname, (hasElement_iff named).2 ⟨_, rfl, hhead⟩⟩
  have htimestamp : ∀ name, (∃ c ∈ table.columns, c.isNamed name = true) →
      (∀ c : ColumnModel, c.isNamed name = true → table.isTimestamp c = true) →
      (created name).TakesEffect table
          (generateTable settings (named.map Plugin.builtin) table Generator.defaults).value ∨
        (created name).IsExempt table
          (generateTable settings (named.map Plugin.builtin) table Generator.defaults).value := by
    intro name hnamed htime
    refine (hasTimeBranch_or_isGenerated htime).imp ?_ fun hall => ⟨hnamed, hall⟩
    rintro ⟨c, hc, hname, hbranch⟩
    exact ⟨c, hc, hname, (hasElement_iff named).2 ⟨_, rfl, hbranch⟩⟩
  rcases TableSpec.mem_roleSettings.1
    hrole with ⟨f, hf, rfl⟩ | ⟨s, hs, rfl⟩ | ⟨name, hname, rfl⟩ | ⟨name, hname, rfl⟩ |
    ⟨k, hk, rfl⟩
  case inl =>
    obtain ⟨c, hc, hname, hsoft | hquery⟩ := isSoftDelete_or_mem_queryFields hf hnamed
    · -- the filter and the soft-delete column have the same name
      obtain ⟨s, hs, hnameS⟩ := (Option.any_eq_true _ _).1 hsoft
      refine .inr ⟨s, hspec.spec_eq ▸ hs, ?_, hsoftDelete s hs ⟨c, hc, hnameS⟩⟩
      refine Text.sameIgnoringCase_trans ?_ hnameS
      rw [Text.sameIgnoringCase_comm]
      exact hname
    · refine .inl ⟨c, hc, hname, hasQueryField_of_mem named (hspec.queryFields ▸ hquery), ?_⟩
      refine (hasElement_iff named).2 ⟨_, rfl, _, ?_, isComparison_fieldPredicate _⟩
      rw [Evaluation.children_condition, hspec.queryFields]
      exact List.mem_append_right _ (List.mem_map_of_mem hquery)
  case inr.inl => exact .inl (hsoftDelete s hs hnamed)
  case inr.inr.inl =>
    refine htimestamp name hnamed fun c hc => ?_
    rw [TableModel.isTimestamp, hspec.spec_eq, Option.mem_def.1 hname]
    simp [hc]
  case inr.inr.inr.inl =>
    refine htimestamp name hnamed fun c hc => ?_
    rw [TableModel.isTimestamp, hspec.spec_eq, Option.mem_def.1 hname]
    simp [hc]
  case inr.inr.inr.inr =>
    obtain ⟨c, hc, hname, hcolumn⟩ := exists_generatedKeyColumn? hspec hk hnamed
    have hkey : table.spec.generatedKey = some k := hspec.spec_eq ▸ hk
    cases hinsert : spec.enableInsert with
    | false =>
      have hnone : table.spec.enableInsert = false :=
        (congrArg TableSpec.enableInsert hspec.spec_eq).trans hinsert
      refine .inr ⟨hnone, c, hc, hname, fun hdriver hbatch => ?_⟩
      rw [hspec.spec_eq] at hbatch
      obtain ⟨e, he, hretrieves⟩ :=
        exists_batchInsert_retrieves hkey hcolumn hdriver (hspec.batchInsert.trans hbatch)
      exact (hasElement_iff named).2 ⟨e, he, hretrieves⟩
    | true =>
      obtain ⟨e, he, hretrieves⟩ :=
        exists_insert_retrieves hkey hcolumn (hspec.insert.trans hinsert)
      exact .inl ⟨c, hc, hname, (hasElement_iff named).2 ⟨e, he, hretrieves⟩⟩

end RoleSetting

end TableMapper
