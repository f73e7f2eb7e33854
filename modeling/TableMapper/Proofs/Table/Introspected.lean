import TableMapper.Proofs.Table.PrimaryKey

/-!
# Where a table model comes from

**Every model that introspection finds is built from the rows of its own
table**, less the rows that an ignore rule hits, with the key rows of this
table marked (`exists_columns_of_mem_introspect`). What the rows and the key
rows of other tables are makes no difference to it.
-/

namespace TableMapper

/-! ## Results one after another -/

theorem Except.exists_of_bind_eq_ok {ε α β : Type} {x : Except ε α} {f : α → Except ε β} {b : β}
    (h : (x >>= f) = .ok b) : ∃ a, x = .ok a ∧ f a = .ok b := by
  cases x with
  | error e => exact Except.noConfusion rfl rfl (heq_of_eq h)
  | ok a => exact ⟨a, rfl, h⟩

namespace Introspection

variable {settings : Settings} {spec : TableSpec} {source : MetadataSource} {model : TableModel}

/-- The columns a table has under the ignore rules, before its key is
known. -/
def keptColumns (settings : Settings) (spec : TableSpec) (renamer : Option Renamer)
    (ignores : IgnoreRules)
    (rows : List RawColumn) : List ColumnModel :=
  (rows.filter fun row => !ignores.ignores row.name).map (resolveColumn settings spec renamer)

theorem primaryKey_of_mem_keptColumns {renamer : Option Renamer} {ignores : IgnoreRules}
    {rows : List RawColumn}
    {c : ColumnModel} (hc : c ∈ keptColumns settings spec renamer ignores rows) :
    c.primaryKey = false := by
  obtain ⟨row, -, rfl⟩ := List.mem_map.1 hc
  rfl

/-- A name is that of a column exactly if it is that of a row no ignore rule
hits. -/
theorem exists_mem_keptColumns_iff {renamer : Option Renamer} {ignores : IgnoreRules}
    {rows : List RawColumn}
    {name : String} :
    (∃ c ∈ keptColumns settings spec renamer ignores rows, c.isNamed name = true) ↔
      ∃ row ∈ rows, ignores.ignores row.name = false ∧
      Text.sameIgnoringCase row.name name = true := by
  constructor
  · rintro ⟨c, hc, hname⟩
    obtain ⟨row, hrow, rfl⟩ := List.mem_map.1 hc
    obtain ⟨hmem, hkept⟩ := List.mem_filter.1 hrow
    exact ⟨row, hmem, by simpa using hkept, hname⟩
  · rintro ⟨row, hmem, hkept, hname⟩
    exact ⟨_, List.mem_map_of_mem (List.mem_filter.2 ⟨hmem, by simpa using hkept⟩), hname⟩

/-- The key rows a source reports of a table: none when the look-up fails. -/
def keyRows (source : MetadataSource) (table : TableRef) : List KeyColumn :=
  match source.primaryKey table with
  | .ok keys => keys
  | .error _ => []

/-- The columns with the key marked, in every case. -/
theorem value_withPrimaryKey (table : TableRef) (columns : List ColumnModel) :
    (withPrimaryKey table source columns).value = markKeys (keyRows source table) columns := by
  rw [withPrimaryKey, keyRows]
  cases source.primaryKey table <;> rfl

/-! ## One table -/

/-- What the parts of a model are that is completed from columns. -/
theorem ofColumns_eq_ok {table : TableRef} {columns : List ColumnModel}
    {remarks : Option String}
    (h : TableModel.ofColumns settings spec table columns remarks = .ok model) :
    model.table = table ∧ model.columns = columns ∧ model.spec = spec ∧
      model.rules = .ofSpec spec (columns.any (·.primaryKey)) ∧
      model.queryFields = spec.queryFields columns := by
  obtain ⟨domainObject, -, h⟩ := Except.exists_of_bind_eq_ok h
  cases h
  exact ⟨rfl, rfl, rfl, rfl, rfl⟩

/-- The names in a model are those for some domain object. -/
theorem exists_names_of_ofColumns {table : TableRef} {columns : List ColumnModel}
    {remarks : Option String}
    (h : TableModel.ofColumns settings spec table columns remarks = .ok model) :
    ∃ domainObject, model.names =
      .ofDomainObject settings domainObject (table.runtimeName spec.delimitIdentifiers) := by
  obtain ⟨domainObject, -, h⟩ := Except.exists_of_bind_eq_ok h
  cases h
  exact ⟨domainObject, rfl⟩

/-- **The parts a model is built from.** -/
theorem exists_columns_of_buildTable {table : TableRef} {rows : List RawColumn}
    {built : Warned (Option TableModel)}
    (h : buildTable settings spec table source rows = .ok built)
    (hmodel : built.value = some model) :
    ∃ renamer ignores, spec.ignoreRules = .ok ignores ∧
      TableModel.ofColumns settings spec table
        (markKeys (keyRows source table) (keptColumns settings spec renamer ignores rows))
        (remarksOf table source).value = .ok model := by
  obtain ⟨renamer, -, h⟩ := Except.exists_of_bind_eq_ok h
  obtain ⟨ignores, hignores, h⟩ := Except.exists_of_bind_eq_ok h
  refine ⟨renamer, ignores, hignores, ?_⟩
  rw [← value_withPrimaryKey]
  revert h
  simp only
  split
  next skipped hskip =>
    rintro ⟨⟩
    exact absurd hmodel (by simp)
  next hskip =>
    intro h
    obtain ⟨built', hbuilt, h⟩ := Except.exists_of_bind_eq_ok h
    cases h
    cases hmodel
    exact hbuilt

/-! ## All tables of a specification -/

/-- Models come from groups, and the warnings about a group are among those
about all of them. -/
theorem exists_group_of_mem_buildTables {groups : Groups} {found : Warned (List TableModel)}
    (h : buildTables settings spec source groups = .ok found) (hmodel : model ∈ found.value) :
    ∃ group ∈ groups, ∃ built, buildTable settings spec group.1 source group.2 = .ok built ∧
      built.value = some model ∧ built.warnings ⊆ found.warnings := by
  induction groups generalizing found with
  | nil =>
    cases h
    exact absurd hmodel List.not_mem_nil
  | cons group rest ih =>
    obtain ⟨first, hfirst, h⟩ := Except.exists_of_bind_eq_ok h
    obtain ⟨others, hothers, h⟩ := Except.exists_of_bind_eq_ok h
    cases h
    rcases List.mem_append.1 hmodel with hmem | hmem
    · exact ⟨group, List.mem_cons_self, first, hfirst, by simpa using hmem,
        List.subset_append_left _ _⟩
    · obtain ⟨group', hgroup, built, hbuilt, hvalue, hwarnings⟩ := ih hothers hmem
      exact ⟨group', List.mem_cons_of_mem _ hgroup, built, hbuilt, hvalue,
        List.subset_append_of_subset_right _ hwarnings⟩

/-- **A model that introspection finds is built from the rows of its own
table**, and what is wrong with these is reported. -/
theorem exists_built_of_mem_introspect {found : Warned (List TableModel)}
    (h : introspect settings spec source = .ok found) (hmodel : model ∈ found.value) :
    ∃ rows built, source.columns spec.catalog spec.schema spec.matchesTable = .ok rows ∧
      buildTable settings spec model.table source (rowsOf model.table rows) = .ok built ∧
      built.value = some model ∧ built.warnings ⊆ found.warnings := by
  rw [introspect] at h
  cases hrows : source.columns spec.catalog spec.schema spec.matchesTable with
  | error fault =>
    simp only [hrows] at h
    cases h
    exact absurd hmodel List.not_mem_nil
  | ok rows =>
    cases hgroups : groupRows rows with
    | nil =>
      simp only [hrows, hgroups] at h
      cases h
      exact absurd hmodel List.not_mem_nil
    | cons first rest =>
      simp only [hrows, hgroups] at h
      obtain ⟨built, hbuilt, h⟩ := Except.exists_of_bind_eq_ok h
      cases h
      obtain ⟨⟨table, group⟩, hgroup, built', hbuilt', hvalue, hwarnings⟩ :=
        exists_group_of_mem_buildTables hbuilt hmodel
      rw [← hgroups, mem_groupRows_iff] at hgroup
      obtain ⟨_, _, _, hcolumns⟩ := exists_columns_of_buildTable hbuilt' hvalue
      obtain rfl := (ofColumns_eq_ok hcolumns).1
      rw [hgroup.2] at hbuilt'
      exact ⟨rows, built', rfl, hbuilt', hvalue, List.subset_append_of_subset_right _ hwarnings⟩

/-- The columns of a model are those its rows resolve to, with the key of the
table marked. -/
theorem exists_columns_of_mem_introspect {found : Warned (List TableModel)} {rows : List RawColumn}
    (h : introspect settings spec source = .ok found)
    (hrows : source.columns spec.catalog spec.schema spec.matchesTable = .ok rows)
    (hmodel : model ∈ found.value) :
    ∃ renamer ignores, spec.ignoreRules = .ok ignores ∧
      TableModel.ofColumns settings spec model.table
        (markKeys (keyRows source model.table)
          (keptColumns settings spec renamer ignores (rowsOf model.table rows)))
        (remarksOf model.table source).value = .ok model := by
  obtain ⟨rows', built, hrows', hbuilt, hvalue, -⟩ := exists_built_of_mem_introspect h hmodel
  cases hrows'.symm.trans hrows
  exact exists_columns_of_buildTable hbuilt hvalue

end Introspection

/-! ## Query fields -/

/-- The columns behind the properties of a query condition. -/
theorem TableSpec.exists_column_of_mem_queryFields {spec : TableSpec} {columns : List ColumnModel}
    {f : QueryField}
    (h : f ∈ spec.queryFields columns) : ∃ c ∈ columns, ∃ multiValue,
    f = .ofColumn c multiValue := by
  obtain ⟨⟨c, multiValue⟩, hfilter, rfl⟩ := List.mem_map.1 h
  refine ⟨c, ?_, multiValue, rfl⟩
  have hmem := (List.mem_filter.1 hfilter).1
  rw [filterColumns] at hmem
  split at hmem
  · obtain ⟨d, hd, heq⟩ := List.mem_map.1 hmem
    cases heq
    exact hd
  · obtain ⟨filter, -, hfound⟩ := List.mem_filterMap.1 hmem
    obtain ⟨d, hd, heq⟩ := Option.map_eq_some_iff.1 hfound
    cases heq
    exact List.mem_of_find?_eq_some hd

end TableMapper
