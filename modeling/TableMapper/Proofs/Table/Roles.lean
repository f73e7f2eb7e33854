import TableMapper.Proofs.Table.Introspected

/-!
# Columns with a role

A specification names columns that play a role of their own: those of the
filters, the soft-delete column, the two timestamps and the generated key.
Whether they are there is looked up in two different lists. For the key all
rows of the table count, for the other roles the columns that the ignore
rules leave. So **a column with a role is one of the columns of the model, or
a warning names it, or it is the column of the key and an ignore rule has hit
it** (`exists_names_or_told`).
-/

namespace TableMapper

/-- **A setting that gives a column a role.** -/
inductive RoleSetting
  | filter (f : FilterColumn)
  | softDelete (s : SoftDelete)
  | created (column : String)
  | modified (column : String)
  | key (k : GeneratedKey)
deriving Repr, DecidableEq

/-- **The settings of a specification that give columns a role.** -/
def TableSpec.roleSettings (spec : TableSpec) : List RoleSetting :=
  spec.filters.map .filter ++ spec.softDelete.toList.map .softDelete ++
    spec.createdColumn.toList.map .created ++
    spec.modifiedColumn.toList.map .modified ++ spec.generatedKey.toList.map .key

namespace RoleSetting

/-- The setting names a column. The column of the key may be named with
regard to case. -/
def names : RoleSetting → String → Bool
  | filter f, column => Text.sameIgnoringCase column f.column
  | softDelete s, column => Text.sameIgnoringCase column s.column
  | created name, column | modified name, column => Text.sameIgnoringCase column name
  | key k, column => k.matchesColumn column

/-- **The warning that a column with a role is not there.** -/
def warning (table : TableRef) : RoleSetting → Warning
  | filter f => .roleMissing f.column .filter table
  | softDelete s => .roleMissing s.column .softDelete table
  | created name => .roleMissing name .created table
  | modified name => .roleMissing name .modified table
  | key k => .keyMissing k.column table

end RoleSetting

/-- What the settings of a specification are. -/
theorem TableSpec.mem_roleSettings {spec : TableSpec} {role : RoleSetting} :
    role ∈ spec.roleSettings ↔
    (∃ f ∈ spec.filters, .filter f = role) ∨ (∃ s ∈ spec.softDelete, .softDelete s = role) ∨
      (∃ name ∈ spec.createdColumn, .created name = role) ∨
      (∃ name ∈ spec.modifiedColumn, .modified name = role) ∨
        ∃ k ∈ spec.generatedKey, .key k = role := by
  simp only [roleSettings, List.mem_append, List.mem_map, Option.mem_toList,
    Option.mem_def, or_assoc]

namespace Introspection

variable {settings : Settings} {spec : TableSpec} {source : MetadataSource} {table : TableRef}

/-! ## Warnings about roles -/

/-- A role whose column is not kept is told. -/
theorem any_isNamed_or_told {columns : List ColumnModel} {name : String} {role : ColumnRole}
    (h : (name, role) ∈ roles spec) :
    (∃ c ∈ columns, c.isNamed name = true) ∨
    .roleMissing name role table ∈ roleWarnings spec table columns := by
  cases hany : columns.any (·.isNamed name) with
  | true => exact .inl (List.any_eq_true.1 hany)
  | false =>
    exact .inr (List.mem_map.2 ⟨(name, role), List.mem_filter.2 ⟨h, by simp [hany]⟩, rfl⟩)

/-- A key whose column no row has is told. -/
theorem any_matchesColumn_or_told {rows : List RawColumn} {k : GeneratedKey}
    (h : k ∈ spec.generatedKey) :
    (∃ row ∈ rows, k.matchesColumn row.name = true) ∨
    .keyMissing k.column table ∈ missingWarnings spec table rows := by
  cases hany : rows.any fun row => k.matchesColumn row.name with
  | true => exact .inl (List.any_eq_true.1 hany)
  | false =>
    have hmissing : k ∈ spec.generatedKey.toList.filter fun k => !rows.any fun row =>
      k.matchesColumn row.name :=
      List.mem_filter.2 ⟨Option.mem_toList.2 h, by simp [hany]⟩
    exact .inr (List.mem_append_right _ (List.mem_map.2 ⟨k, hmissing, rfl⟩))

/-- What is wrong with the columns that a specification names is reported. -/
theorem subset_warnings_of_buildTable {rows : List RawColumn} {built : Warned (Option TableModel)}
    (h : buildTable settings spec table source rows = .ok built) :
    ∃ renamer ignores, spec.ignoreRules = .ok ignores ∧
    missingWarnings spec table rows ⊆ built.warnings ∧
      roleWarnings spec table (keptColumns settings spec renamer ignores rows)
        ⊆ built.warnings := by
  obtain ⟨renamer, -, h⟩ := Except.exists_of_bind_eq_ok h
  obtain ⟨ignores, hignores, h⟩ := Except.exists_of_bind_eq_ok h
  refine ⟨renamer, ignores, hignores, ?_⟩
  -- whether the table is skipped or not, these warnings come first
  suffices hfront : ∃ types key others, built.warnings = missingWarnings spec table rows ++ types ++
      roleWarnings spec table (keptColumns settings spec renamer ignores rows) ++ key ++ others by
    obtain ⟨types, key, others, hfront⟩ := hfront
    rw [hfront]
    exact ⟨fun w hw => by simp [hw], fun w hw => by simp [hw]⟩
  revert h
  simp only
  split
  next skipped hskip =>
    rintro ⟨⟩
    exact ⟨_, _, _, List.append_assoc _ _ _⟩
  next hskip =>
    intro h
    obtain ⟨model, -, h⟩ := Except.exists_of_bind_eq_ok h
    cases h
    exact ⟨_, _, _, List.append_assoc _ _ _⟩

/-! ## The columns of a model -/

variable {found : Warned (List TableModel)} {model : TableModel}

/-- **The names of the columns** are those of the rows that no ignore rule
hits. -/
theorem exists_actualName_iff {keys : List KeyColumn} {renamer : Option Renamer}
    {ignores : IgnoreRules}
    {rows : List RawColumn} {names : String → Bool} :
    (∃ c ∈ markKeys keys (keptColumns settings spec renamer ignores rows),
      names c.actualName = true) ↔
      ∃ row ∈ rows, ignores.ignores row.name = false ∧ names row.name = true := by
  have hnames : (markKeys keys (keptColumns settings spec renamer ignores rows)).map
      (·.actualName) =
      (rows.filter fun row => !ignores.ignores row.name).map (·.name) := by
    rw [map_actualName_markKeys, keptColumns, List.map_map]
    rfl
  have hany : ∀ columns : List ColumnModel, (∃ c ∈ columns, names c.actualName = true) ↔
      (columns.map (·.actualName)).any names = true := by
    intro columns
    rw [List.any_map, List.any_eq_true]
    rfl
  rw [hany, hnames, List.any_map, List.any_eq_true]
  simp [and_assoc]

/-- How the generated key concerns a column of a model. -/
theorem keyGeneration_of_mem {keys : List KeyColumn} {renamer : Option Renamer}
    {ignores : IgnoreRules}
    {rows : List RawColumn} {c : ColumnModel}
    (hc : c ∈ markKeys keys (keptColumns settings spec renamer ignores rows)) :
    c.keyGeneration = keyGenerationOf spec c.actualName := by
  have hparts : (c.actualName, c.keyGeneration) ∈
      (keptColumns settings spec renamer ignores rows).map fun c =>
    (c.actualName, c.keyGeneration) := by
    rw [← map_markKeys (fun c keys => ?_) keys]
    · exact List.mem_map_of_mem hc
    · rw [marked]
      cases keys.getLast? <;> rfl
  obtain ⟨d, hd, heq⟩ := List.mem_map.1 hparts
  obtain ⟨row, -, rfl⟩ := List.mem_map.1 hd
  obtain ⟨hname, hkey⟩ := Prod.mk.inj heq
  rw [← hname, ← hkey]
  rfl

/-- The column of a generated key has its value from the key. -/
theorem keyGenerationOf_ne {k : GeneratedKey} (hk : spec.generatedKey = some k) {name : String} :
    (keyGenerationOf spec name != .notGenerated) = k.matchesColumn name := by
  rw [keyGenerationOf, hk]
  dsimp only
  cases k.matchesColumn name with
  | false => rfl
  | true => cases k.isIdentity <;> rfl

/-- **A model keeps to a specification**, as far as roles are concerned. -/
structure KeepsTo (model : TableModel) (spec : TableSpec) : Prop where
  spec_eq : model.spec = spec
  queryFields : model.queryFields = spec.queryFields model.columns
  insert : model.rules.insert = spec.enableInsert
  batchInsert : model.rules.batchInsert = spec.enableBatchInsert
  keyGeneration : ∀ c ∈ model.columns, c.keyGeneration = keyGenerationOf spec c.actualName

theorem keepsTo_of_mem_introspect (h : introspect settings spec source = .ok found)
    (hmodel : model ∈ found.value) :
    KeepsTo model spec := by
  obtain ⟨rows, built, -, hbuilt, hvalue, -⟩ := exists_built_of_mem_introspect h hmodel
  obtain ⟨renamer, ignores, -, hcolumns⟩ := exists_columns_of_buildTable hbuilt hvalue
  obtain ⟨-, hmarked, hspec, hrules, hquery⟩ := ofColumns_eq_ok hcolumns
  exact {
    spec_eq := hspec
    queryFields := hmarked ▸ hquery
    insert := hrules ▸ rfl
    batchInsert := hrules ▸ rfl
    keyGeneration := fun c hc => keyGeneration_of_mem (hmarked ▸ hc) }

/-- **The column of a role that an ignore rule has hit**: a row of the table
has it, and no column of the model. -/
structure IsIgnored (spec : TableSpec) (source : MetadataSource) (model : TableModel)
    (role : RoleSetting) : Prop where
  absent : ∀ c ∈ model.columns, role.names c.actualName = false
  ignored : ∃ rows ignores row,
    source.columns spec.catalog spec.schema spec.matchesTable = .ok rows ∧
    spec.ignoreRules = .ok ignores ∧ row ∈ rows ∧ row.table = model.table ∧
    role.names row.name = true ∧
      ignores.ignores row.name = true

/-- **Where the column of a role is**: among the columns of the model, or a
warning names it, or it is the column of the generated key and an ignore rule
has hit it. -/
theorem exists_names_or_told (h : introspect settings spec source = .ok found)
    (hmodel : model ∈ found.value)
    {role : RoleSetting} (hrole : role ∈ spec.roleSettings) :
    (∃ c ∈ model.columns, role.names c.actualName = true) ∨
    role.warning model.table ∈ found.warnings ∨
      (∃ k, role = .key k) ∧ IsIgnored spec source model role := by
  obtain ⟨rows, built, hrows, hbuilt, hvalue, hreported⟩ := exists_built_of_mem_introspect h hmodel
  obtain ⟨renamer, ignores, hignores, hcolumns⟩ := exists_columns_of_buildTable hbuilt hvalue
  obtain ⟨renamer', ignores', hignores', hmissing, hroles⟩ := subset_warnings_of_buildTable hbuilt
  cases hignores.symm.trans hignores'
  have hmarked := (ofColumns_eq_ok hcolumns).2.1
  -- neither the renaming nor the marking of keys has a say in which names are there
  have hplain : ∀ name columnRole, (name, columnRole) ∈ roles spec →
      (∃ c ∈ model.columns, c.isNamed name = true) ∨
      .roleMissing name columnRole model.table ∈ found.warnings := by
    intro name columnRole hmem
    have hnamed : (∃ c ∈ model.columns, c.isNamed name = true) ↔
        ∃ c ∈ keptColumns settings spec renamer' ignores (rowsOf model.table rows),
        c.isNamed name = true := by
      rw [hmarked, exists_isNamed_markKeys, exists_mem_keptColumns_iff, exists_mem_keptColumns_iff]
    rw [hnamed]
    exact (any_isNamed_or_told hmem).imp_right fun htold => hreported (hroles htold)
  rcases TableSpec.mem_roleSettings.1
    hrole with ⟨f, hf, rfl⟩ | ⟨s, hs, rfl⟩ | ⟨name, hname, rfl⟩ | ⟨name, hname, rfl⟩ |
    ⟨k, hk, rfl⟩
  case inl =>
    exact (hplain f.column .filter (by simpa [roles] using ⟨f, hf, rfl⟩)).imp_right .inl
  case inr.inl =>
    exact (hplain s.column .softDelete (by simpa [roles] using ⟨s, hs, rfl⟩)).imp_right .inl
  case inr.inr.inl => exact (hplain name .created (by simpa [roles] using hname)).imp_right .inl
  case inr.inr.inr.inl =>
    exact (hplain name .modified (by simpa [roles] using hname)).imp_right .inl
  case inr.inr.inr.inr =>
    by_cases hkept : ∃ c ∈ model.columns, k.matchesColumn c.actualName = true
    · exact .inl hkept
    rcases @any_matchesColumn_or_told spec model.table (rowsOf model.table rows)
      k hk with hrow | htold
    case inr => exact .inr (.inl (hreported (hmissing htold)))
    obtain ⟨row, hrow, hname⟩ := hrow
    obtain ⟨hmem, htable⟩ := List.mem_filter.1 hrow
    refine .inr (.inr ⟨⟨k, rfl⟩, fun c hc => Bool.eq_false_iff.2 fun hmatches =>
      hkept ⟨c, hc, hmatches⟩, rows, ignores, row, hrows, hignores, hmem,
        of_decide_eq_true htable, hname, ?_⟩)
    -- a row that no rule hits would be a column of the model
    refine eq_true_of_ne_false fun hfree => hkept ?_
    rw [hmarked]
    exact exists_actualName_iff.2 ⟨row, hrow, hfree, hname⟩

end Introspection

end TableMapper
