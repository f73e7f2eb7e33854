import Mathlib.Data.List.Sort
import TableMapper.Proofs.Settings.Accepted

/-!
# What becomes of the rows

Rows are grouped, left out by ignore rules, resolved one by one and marked
as key, and a table may be skipped in the end. Nothing gets lost on the way:
**the columns of a model are the rows of its table that no ignore rule hits,
in their order and each of them once, and a table without model is reported
as skipped, once** (`introspect_accounts`).

The rows of different tables may be reported in any mixture. Grouping
forgets the mixture and nothing else (`groupRows_eq_groupRows`), so the
models and the warnings are the same for all of them.
-/

namespace TableMapper

/-! ## Rows left out -/

/-- Results one after another are there for each of the items. -/
theorem Except.forall₂_of_mapM_eq_ok {ε α β : Type} {f : α → Except ε β} {as : List α} {bs : List β}
    (h : as.mapM f = .ok bs) : List.Forall₂ (fun a b => f a = .ok b) as bs := by
  induction as generalizing bs with
  | nil =>
    cases h
    exact .nil
  | cons a as ih =>
    rw [List.mapM_cons] at h
    obtain ⟨b, hb, h⟩ := exists_of_bind_eq_ok h
    obtain ⟨bs', hbs, h⟩ := exists_of_bind_eq_ok h
    cases h
    exact .cons hb (ih hbs)

/-- **A pattern hits a column**: it matches, and the column is none of its
exceptions. -/
def IgnoredPattern.hits (p : IgnoredPattern) (column : String) : Bool :=
  (Pattern.compile p.pattern).toOption.any (·.matches column) && !p.except.any
    (Text.sameIgnoringCase · column)

namespace TableSpec

/-- **An ignore rule hits a column**: it is ignored by its name, or a pattern
hits it. -/
def hits (spec : TableSpec) (column : String) : Bool :=
  spec.ignoredColumns.any (·.matchesColumn column) || spec.ignoredPatterns.any (·.hits column)

/-- **The rows that no ignore rule hits.** -/
def keptRows (spec : TableSpec) (rows : List RawColumn) : List RawColumn :=
  rows.filter fun row => !spec.hits row.name

/-- The rules as they are read ignore what the rules hit. -/
theorem ignores_eq_hits {spec : TableSpec} {ignores : IgnoreRules}
    (h : spec.ignoreRules = .ok ignores)
    (column : String) : ignores.ignores column = spec.hits column := by
  obtain ⟨patterns, hpatterns, h⟩ := Except.exists_of_bind_eq_ok h
  cases h
  refine congrArg (spec.ignoredColumns.any (·.matchesColumn column) || ·) ?_
  have hread := Except.forall₂_of_mapM_eq_ok hpatterns
  clear hpatterns h
  generalize spec.ignoredPatterns = rules at hread
  dsimp only
  induction hread with
  | nil => rfl
  | cons hfirst _ ih =>
    obtain ⟨pattern, hpattern, hfirst⟩ := Except.exists_of_bind_eq_ok hfirst
    cases hfirst
    rw [List.any_cons, List.any_cons, ih, IgnoredPattern.hits, hpattern]
    rfl

theorem filter_ignores {spec : TableSpec} {ignores : IgnoreRules}
    (h : spec.ignoreRules = .ok ignores)
    (rows : List RawColumn) : (rows.filter fun row => !ignores.ignores row.name)
      = spec.keptRows rows := by
  rw [keptRows]
  simp only [ignores_eq_hits h]

end TableSpec

/-- **The table that a warning reports as skipped.** -/
def Warning.skipped? : Warning → Option TableRef
  | .noColumns table | .onlyLargeObjects table => some table
  | _ => none

/-- **The tables that a warning names.** -/
def Warning.tables : Warning → List TableRef
  | .severalTables _ tables => tables
  | .ignoredMissing _ table | .overrideMissing _ table | .keyMissing _
      table | .unsupportedType _ _ table _
  | .roleMissing _ _ table | .keyUnreadable table _ | .remarksUnreadable table _ | .noColumns table
  | .onlyLargeObjects table | .reservedProperty _ table _ | .noPrimaryKey table => [table]
  | .columnsUnreadable .. | .noTable _ | .directory .. | .unmerged _ | .overwritten _ | .renamed ..
  | .suffixesExhausted _ | .note _ => []

theorem Warning.tables_of_skipped? {w : Warning} {table : TableRef} (h : w.skipped? = some table) :
    w.tables = [table] := by
  unfold skipped? at h
  split at h
  · rw [tables, Option.some.inj h]
  · rw [tables, Option.some.inj h]
  · cases h

namespace Introspection

variable {settings : Settings} {spec : TableSpec} {source : MetadataSource} {table : TableRef}
  {rows : List RawColumn}
  {groups : Groups}

/-! ## Rows as columns -/

/-- **A column that a row resolves to**, in the key or not. -/
def IsColumnOf (settings : Settings) (spec : TableSpec) (renamer : Option Renamer) (row : RawColumn)
    (c : ColumnModel) : Prop :=
  c = { resolveColumn settings spec renamer
    row with primaryKey := c.primaryKey, keySequence := c.keySequence }

/-- **A row stands for a large object**, by its own type or by the one that
overrides it. -/
def isLargeObject (settings : Settings) (spec : TableSpec) (row : RawColumn) : Bool :=
  let resolved := ((typeOptions settings).resolve? row).getD .untyped
  let jdbcType := ((spec.overrideFor? row.name).bind (·.jdbcType)).getD resolved.jdbcType
  (JdbcType.ofName? (Text.asciiUpper jdbcType)).any (·.isLargeObject)

theorem largeObject_resolveColumn (renamer : Option Renamer) (row : RawColumn) :
    (resolveColumn settings spec renamer row).largeObject = isLargeObject settings spec row := by
  rw [resolveColumn, isLargeObject]

theorem marked_eq (c : ColumnModel) (keys : List KeyColumn) : marked c keys =
    { c with primaryKey := (marked c keys).primaryKey, keySequence := (marked c keys).keySequence } := by
  rw [marked]
  split <;> rfl

theorem forall₂_isColumnOf_markKeys (renamer : Option Renamer) (keys : List KeyColumn)
    (rows : List RawColumn) :
    List.Forall₂ (IsColumnOf settings spec renamer) rows
      (markKeys keys (rows.map (resolveColumn settings spec renamer))) := by
  induction rows generalizing keys with
  | nil =>
    rw [List.map_nil, markKeys_nil]
    exact .nil
  | cons row rows ih =>
    rw [List.map_cons, markKeys_cons]
    exact .cons (marked_eq _ _) (ih _)

/-! ## Skipped tables -/

/-- **A table has no model**: no row of it is kept, or all that are stand for
large objects and no key row names one of them. -/
def IsSkipped (settings : Settings) (spec : TableSpec) (source : MetadataSource) (table : TableRef)
    (rows : List RawColumn) : Prop :=
  spec.keptRows rows = [] ∨
    (∀ row ∈ spec.keptRows rows, isLargeObject settings spec row = true) ∧
      ∀ row ∈ spec.keptRows rows, ∀ key ∈ keyRows source table,
      Text.sameIgnoringCase row.name key.column = false

instance : Decidable (IsSkipped settings spec source table rows) :=
  inferInstanceAs (Decidable (_ ∨ _))

theorem largeObject_marked (c : ColumnModel) (keys : List KeyColumn) :
    (marked c keys).largeObject = c.largeObject := by
  rw [marked]
  split <;> rfl

theorem markKeys_eq_nil_iff {keys : List KeyColumn} {columns : List ColumnModel} :
    markKeys keys columns = [] ↔ columns = [] := by
  rw [← List.map_eq_nil_iff (f := ColumnModel.actualName),
    map_actualName_markKeys, List.map_eq_nil_iff]

theorem all_largeObject_markKeys (keys : List KeyColumn) (columns : List ColumnModel) :
    (markKeys keys columns).all (·.largeObject) = columns.all (·.largeObject) := by
  have hall : ∀ columns : List ColumnModel,
      columns.all (·.largeObject) = (columns.map (·.largeObject)).all id :=
    fun columns => (List.all_map (p := id)).symm
  rw [hall, map_markKeys largeObject_marked, ← hall]

/-- Skipping is decided on the columns with the key marked. -/
theorem skipWarning?_eq_none_iff {renamer : Option Renamer} :
    skipWarning? table (markKeys (keyRows source table)
        ((spec.keptRows rows).map (resolveColumn settings spec renamer))) = none ↔
      ¬ IsSkipped settings spec source table rows := by
  have hlarge : ((spec.keptRows rows).map (resolveColumn settings spec renamer)).all
      (·.largeObject) = true ↔
      ∀ row ∈ spec.keptRows rows, isLargeObject settings spec row = true := by
    simp only [List.all_map, List.all_eq_true, Function.comp_apply, largeObject_resolveColumn]
  have hkey : ((markKeys (keyRows source table)
      ((spec.keptRows rows).map (resolveColumn settings spec renamer))).any
        (·.primaryKey)) = false ↔
        ∀ row ∈ spec.keptRows rows, ∀ key ∈ keyRows source table,
          Text.sameIgnoringCase row.name key.column = false := by
    rw [← Bool.not_eq_true, any_primaryKey_markKeys (List.forall_mem_map.2 fun row _ => rfl)]
    simp only [List.mem_map, exists_exists_and_eq_and, not_exists, not_and, Bool.not_eq_true]
    exact ⟨fun h row hrow key hkey => h key hkey row hrow,
      fun h key hkey row hrow => h row hrow key hkey⟩
  rw [skipWarning?, IsSkipped, ← hlarge, ← hkey]
  simp only [List.isEmpty_iff, markKeys_eq_nil_iff, List.map_eq_nil_iff, all_largeObject_markKeys,
    Bool.and_eq_true, Bool.not_eq_true']
  split
  next hnone => exact iff_of_false nofun (not_not_intro (.inl hnone))
  next hsome =>
    split
    next hlob => exact iff_of_false nofun (not_not_intro (.inr hlob.symm))
    next hother =>
      exact iff_of_true rfl fun hskipped => hskipped.elim hsome fun hlob => hother hlob.symm

/-- The warning that a table is skipped names this table. -/
theorem skipped?_of_skipWarning? {columns : List ColumnModel} {w : Warning}
    (h : skipWarning? table columns = some w) :
    w.skipped? = some table := by
  rw [skipWarning?] at h
  split at h
  · cases h
    rfl
  · split at h
    · cases h
      rfl
    · cases h

/-! ## One table -/

/-- The other warnings about a table name it, but do not report it as
skipped. -/
theorem warning_cases {renamer : Option Renamer} {columns resolved : List ColumnModel}
    {kept : List RawColumn}
    {w : Warning}
    (h : w ∈ missingWarnings spec table rows ++ kept.flatMap
      (typeWarning settings spec table renamer) ++ roleWarnings spec table resolved ++
      (withPrimaryKey table source columns).warnings ++
        (remarksOf table source).warnings) : w.skipped? = none ∧ w.tables = [table] := by
  simp only [List.mem_append] at h
  obtain (((hmissing | htype) | hrole) | hkey) | hremarks := h
  · simp only [missingWarnings, List.mem_append, List.mem_map] at hmissing
    obtain (⟨_, -, rfl⟩ | ⟨_, -, rfl⟩) | ⟨_, -, rfl⟩ := hmissing <;> exact ⟨rfl, rfl⟩
  · obtain ⟨row, -, hrow⟩ := List.mem_flatMap.1 htype
    rw [typeWarning] at hrow
    split at hrow
    · rw [List.mem_singleton.1 hrow]
      exact ⟨rfl, rfl⟩
    · exact absurd hrow List.not_mem_nil
  · obtain ⟨_, -, rfl⟩ := List.mem_map.1 hrole
    exact ⟨rfl, rfl⟩
  · rw [withPrimaryKey] at hkey
    split at hkey
    · exact absurd hkey List.not_mem_nil
    · rw [List.mem_singleton.1 hkey]
      exact ⟨rfl, rfl⟩
  · rw [remarksOf] at hremarks
    split at hremarks
    · exact absurd hremarks List.not_mem_nil
    · rw [List.mem_singleton.1 hremarks]
      exact ⟨rfl, rfl⟩

theorem reservedWarning_cases {columns : List ColumnModel} {w : Warning}
    (h : w ∈ reservedWarnings table columns) :
    w.skipped? = none ∧ w.tables = [table] := by
  obtain ⟨_, -, rfl⟩ := List.mem_map.1 h
  exact ⟨rfl, rfl⟩

/-- **The columns of a model stand for its rows**, in their order. -/
def ColumnsFor (settings : Settings) (spec : TableSpec) (rows : List RawColumn)
    (model : TableModel) : Prop :=
  ∃ renamer, spec.columnRenaming.mapM (·.compile) = .ok renamer ∧
    List.Forall₂ (IsColumnOf settings spec renamer) (spec.keptRows rows) model.columns

/-- **What becomes of a table**: it is skipped and reported, or it has a model
and is not. Its warnings name it. -/
inductive Fate (settings : Settings) (spec : TableSpec) (source : MetadataSource) (table : TableRef)
    (rows : List RawColumn) (built : Warned (Option TableModel)) : Prop
  | skipped (h : IsSkipped settings spec source table rows) (hvalue : built.value = none)
      (htold : built.warnings.filterMap Warning.skipped? = [table])
      (hnamed : ∀ w ∈ built.warnings, w.tables = [table])
  | modelled {model : TableModel} (h : ¬ IsSkipped settings spec source table rows)
      (hvalue : built.value = some model)
      (htable : model.table = table) (hcolumns : ColumnsFor settings spec rows model)
      (htold : built.warnings.filterMap Warning.skipped? = [])
        (hnamed : ∀ w ∈ built.warnings, w.tables = [table])

theorem fate_of_buildTable {built : Warned (Option TableModel)}
    (h : buildTable settings spec table source rows = .ok built) :
    Fate settings spec source table rows built := by
  obtain ⟨renamer, hrenamer, h⟩ := Except.exists_of_bind_eq_ok h
  obtain ⟨ignores, hignores, h⟩ := Except.exists_of_bind_eq_ok h
  rw [TableSpec.filter_ignores hignores] at h
  -- a table is skipped or not with its key marked; a look-up of the key that fails marks nothing
  have hkeyed : (withPrimaryKey table source
      ((spec.keptRows rows).map (resolveColumn settings spec renamer))).value = _ :=
    value_withPrimaryKey table _
  revert h
  dsimp only
  split
  next w hskip =>
    rintro ⟨⟩
    rw [hkeyed] at hskip
    have hw := skipped?_of_skipWarning? hskip
    refine .skipped (not_not.1 fun hnot => ?_) rfl ?_ ?_
    case refine_1 =>
      rw [skipWarning?_eq_none_iff.2 hnot] at hskip
      exact nomatch hskip
    case refine_2 =>
      rw [List.filterMap_append, List.filterMap_eq_nil_iff.2 fun _ hother =>
        (warning_cases hother).1, List.nil_append, List.filterMap_cons_some hw, List.filterMap_nil]
    case refine_3 =>
      refine List.forall_mem_append.2 ⟨fun _ hother => (warning_cases hother).2, ?_⟩
      exact List.forall_mem_singleton.2 (Warning.tables_of_skipped? hw)
  next hskip =>
    intro h
    obtain ⟨model, hmodel, h⟩ := Except.exists_of_bind_eq_ok h
    cases h
    rw [hkeyed] at hskip
    obtain ⟨htable, hcolumns, -⟩ := ofColumns_eq_ok hmodel
    refine .modelled (skipWarning?_eq_none_iff.1 hskip) rfl htable ⟨renamer, hrenamer, ?_⟩ ?_ ?_
    case refine_1 =>
      rw [hcolumns, hkeyed]
      exact forall₂_isColumnOf_markKeys renamer _ _
    case refine_2 =>
      rw [List.filterMap_append, List.filterMap_eq_nil_iff.2 fun _ hother =>
        (warning_cases hother).1, List.nil_append, List.filterMap_eq_nil_iff.2 fun _ hreserved =>
          (reservedWarning_cases hreserved).1]
    case refine_3 =>
      exact List.forall_mem_append.2 ⟨fun _ hother => (warning_cases hother).2,
        fun _ hreserved => (reservedWarning_cases hreserved).2⟩

/-! ## All tables -/

/-- **What the models and the reports of several tables come to.** -/
structure Covers (settings : Settings) (spec : TableSpec)
    (source : MetadataSource) (groups : Groups)
    (found : Warned (List TableModel)) : Prop where
  tables : found.value.map (·.table) =
    (groups.filter fun group => ¬ IsSkipped settings spec source group.1 group.2).map (·.1)
  columns : ∀ model ∈ found.value, ∃ group ∈ groups, model.table = group.1 ∧
    ColumnsFor settings spec group.2 model
  told : found.warnings.filterMap Warning.skipped? =
    (groups.filter fun group => IsSkipped settings spec source group.1 group.2).map (·.1)

theorem covers_of_buildTables {found : Warned (List TableModel)}
    (h : buildTables settings spec source groups = .ok found) :
    Covers settings spec source groups found := by
  induction groups generalizing found with
  | nil =>
    cases h
    exact ⟨rfl, fun _ hmodel => absurd hmodel List.not_mem_nil, rfl⟩
  | cons group rest ih =>
    obtain ⟨first, hfirst, h⟩ := Except.exists_of_bind_eq_ok h
    obtain ⟨others, hothers, h⟩ := Except.exists_of_bind_eq_ok h
    cases h
    obtain ⟨htables, hcolumns, htold⟩ := ih hothers
    have hrest : ∀ model ∈ others.value, ∃ group' ∈ group :: rest,
        model.table = group'.1 ∧ ColumnsFor settings spec group'.2 model := by
      intro model hmodel
      obtain ⟨group', hgroup', hmodel⟩ := hcolumns model hmodel
      exact ⟨group', List.mem_cons_of_mem _ hgroup', hmodel⟩
    cases fate_of_buildTable hfirst with
    | skipped hskipped hvalue htoldFirst hnamed =>
      refine ⟨?_, ?_, ?_⟩
      · simpa [hvalue, hskipped] using htables
      · simpa [hvalue] using hrest
      · simpa [htoldFirst, hskipped] using htold
    | modelled hnot hvalue htable hcolumnsFirst htoldFirst hnamed =>
      refine ⟨?_, ?_, ?_⟩
      · simpa [hvalue, hnot, htable] using htables
      · rw [hvalue]
        exact List.forall_mem_cons.2 ⟨⟨group, List.mem_cons_self, htable, hcolumnsFirst⟩, hrest⟩
      · simpa [htoldFirst, hnot] using htold

/-- What is reported of the specification as a whole comes first, and does
not report a table as skipped. -/
theorem introspect_cases {found : Warned (List TableModel)}
    (h : introspect settings spec source = .ok found)
    (hrows : source.columns spec.catalog spec.schema spec.matchesTable = .ok rows) :
    ∃ built warnings, buildTables settings spec source (groupRows rows) = .ok built ∧
      found = ⟨warnings ++ built.warnings, built.value⟩ ∧
      ∀ w ∈ warnings, w.skipped? = none ∧ w.tables ⊆ (groupRows rows).map (·.1) := by
  rw [introspect, hrows] at h
  dsimp only at h
  split at h
  next hnone =>
    cases h
    rw [hnone]
    exact ⟨_, [.noTable spec], rfl, rfl, List.forall_mem_singleton.2 ⟨rfl, List.nil_subset _⟩⟩
  next =>
    obtain ⟨built, hbuilt, h⟩ := Except.exists_of_bind_eq_ok h
    cases h
    refine ⟨built, severalWarning spec (groupRows rows), hbuilt, rfl, fun w hw => ?_⟩
    rw [severalWarning] at hw
    split at hw
    · rw [List.mem_singleton.1 hw]
      exact ⟨rfl, List.Subset.refl _⟩
    · exact absurd hw List.not_mem_nil

theorem covers_of_introspect {found : Warned (List TableModel)}
    (h : introspect settings spec source = .ok found)
    (hrows : source.columns spec.catalog spec.schema spec.matchesTable = .ok rows) :
    Covers settings spec source (groupRows rows) found := by
  obtain ⟨built, warnings, hbuilt, rfl, hwarnings⟩ := introspect_cases h hrows
  obtain ⟨htables, hcolumns, htold⟩ := covers_of_buildTables hbuilt
  refine ⟨htables, hcolumns, ?_⟩
  rw [List.filterMap_append, List.filterMap_eq_nil_iff.2 fun w hw => (hwarnings w hw).1,
    List.nil_append]
  exact htold

/-! ## Mixtures of rows -/

/-- **Grouping forgets how the rows of different tables are mixed**: the rows
of each table make the groups. -/
theorem groupRows_eq_groupRows {rows' : List RawColumn}
    (h : ∀ table, rowsOf table rows' = rowsOf table rows) :
    groupRows rows' = groupRows rows := by
  have hirrefl : Std.Irrefl fun a b : TableRef × List RawColumn => a.1.compare b.1 = .lt := by
    refine ⟨fun a hlt => ?_⟩
    rw [TableRef.compare_eq_iff.2 rfl] at hlt
    exact nomatch hlt
  have hantisymm : Std.Antisymm fun a b : TableRef × List RawColumn => a.1.compare b.1 = .lt := by
    refine ⟨fun a b hab hba => absurd (Std.TransCmp.lt_trans hab hba) (hirrefl.irrefl a)⟩
  -- ascending groups are determined by their members, and these by the rows of each table
  refine List.Pairwise.eq_of_mem_iff (ascending_groupRows rows')
    (ascending_groupRows rows) fun group => ?_
  rw [mem_groupRows_iff, mem_groupRows_iff, h]

/-- Of a source the tables ask the key rows and the remarks only. -/
theorem buildTables_congr {other : MetadataSource} (hkeys : other.primaryKey = source.primaryKey)
    (hremarks : other.remarks = source.remarks) (groups : Groups) :
    buildTables settings spec other groups = buildTables settings spec source groups := by
  obtain ⟨columns, keys, remarks⟩ := other
  cases hkeys
  cases hremarks
  induction groups with
  | nil => rfl
  | cons group rest ih =>
    rw [buildTables, buildTables, ih]
    rfl

/-- **Introspection depends on the rows of each table alone.** -/
theorem introspect_congr {other : MetadataSource} {rows' : List RawColumn}
    (hkeys : other.primaryKey = source.primaryKey) (hremarks : other.remarks = source.remarks)
    (hrows : source.columns spec.catalog spec.schema spec.matchesTable = .ok rows)
    (hrows' : other.columns spec.catalog spec.schema spec.matchesTable = .ok rows')
    (h : ∀ table, rowsOf table rows' = rowsOf table rows) :
    introspect settings spec other = introspect settings spec source := by
  rw [introspect, introspect, hrows, hrows']
  dsimp only
  rw [groupRows_eq_groupRows h]
  simp only [buildTables_congr hkeys hremarks]

/-! ## The account -/

/-- **All rows are accounted for** by the models and the warnings. -/
structure AccountsFor (settings : Settings) (spec : TableSpec) (source : MetadataSource)
    (rows : List RawColumn)
    (found : Warned (List TableModel)) : Prop where
  /-- The models stand in the order of their tables, which are distinct. -/
  ascending : found.value.Pairwise fun a b => a.table.compare b.table = .lt
  /-- The columns of a model are the rows of its table that no ignore rule
  hits. -/
  columns : ∀ model ∈ found.value, ColumnsFor settings spec (rowsOf model.table rows) model
  /-- A table has a model unless it has no rows, or is skipped. -/
  modelled : ∀ table, (∃ model ∈ found.value, model.table = table) ↔
    rowsOf table rows ≠ [] ∧ ¬ IsSkipped settings spec source table (rowsOf table rows)
  /-- Each skipped table is reported once, and no other. -/
  told : ∀ table, (found.warnings.filterMap Warning.skipped?).count table =
    if rowsOf table rows ≠ [] ∧
    IsSkipped settings spec source table (rowsOf table rows) then 1 else 0

theorem accountsFor_of_covers {found : Warned (List TableModel)}
    (h : Covers settings spec source (groupRows rows) found) :
    AccountsFor settings spec source rows found := by
  have hmem : ∀ {p : TableRef × List RawColumn → Bool} {table : TableRef},
      table ∈ ((groupRows rows).filter p).map (·.1) ↔
        rowsOf table rows ≠ [] ∧ p (table, rowsOf table rows) = true := by
    intro p table
    rw [List.mem_map]
    constructor
    · rintro ⟨⟨table, group⟩, hgroup, rfl⟩
      obtain ⟨hgroup, hp⟩ := List.mem_filter.1 hgroup
      obtain ⟨hne, rfl⟩ := mem_groupRows_iff.1 hgroup
      exact ⟨hne, hp⟩
    · rintro ⟨hne, hp⟩
      exact ⟨_, List.mem_filter.2 ⟨mem_groupRows_iff.2 ⟨hne, rfl⟩, hp⟩, rfl⟩
  have hascending : ∀ p : TableRef × List RawColumn → Bool,
      (((groupRows rows).filter p).map (·.1)).Pairwise fun a b => a.compare b = .lt :=
    fun p => List.pairwise_map.2 ((ascending_groupRows rows).filter p)
  refine ⟨?_, fun model hmodel => ?_, fun table => ?_, fun table => ?_⟩
  case refine_1 =>
    have htables := hascending fun group => ¬ IsSkipped settings spec source group.1 group.2
    rw [← h.tables, List.pairwise_map] at htables
    exact htables
  case refine_2 =>
    obtain ⟨⟨table, group⟩, hgroup, htable, hcolumns⟩ := h.columns model hmodel
    obtain ⟨-, rfl⟩ := mem_groupRows_iff.1 hgroup
    rw [htable]
    exact hcolumns
  case refine_3 =>
    rw [← List.mem_map, h.tables, hmem, decide_eq_true_eq]
  case refine_4 =>
    have hnodup : (found.warnings.filterMap Warning.skipped?).Nodup := by
      rw [h.told]
      refine (hascending _).imp fun {a b} hlt heq => ?_
      rw [TableRef.compare_eq_iff.2 heq] at hlt
      exact nomatch hlt
    rw [hnodup.count, h.told]
    simp only [hmem, decide_eq_true_eq]

/-- **Introspection accounts for every row**, in whatever mixture the rows of
different tables are reported. -/
theorem introspect_accounts (settings : Settings) {spec : TableSpec} (hspec : spec.Readable) (source : MetadataSource)
    {rows : List RawColumn} (hrows : source.columns spec.catalog spec.schema spec.matchesTable = .ok rows) :
    ∃ found, introspect settings spec source = .ok found ∧ AccountsFor settings spec source rows found ∧
      ∀ (other : MetadataSource) (rows' : List RawColumn), other.primaryKey = source.primaryKey →
        other.remarks = source.remarks → other.columns spec.catalog spec.schema spec.matchesTable = .ok rows' →
          (∀ table, rowsOf table rows' = rowsOf table rows) → introspect settings spec other = .ok found := by
  obtain ⟨found, hfound⟩ := hspec.exists_introspect settings source
  refine ⟨found, hfound, accountsFor_of_covers (covers_of_introspect hfound hrows), ?_⟩
  intro other rows' hkeys hremarks hrows' h
  exact (introspect_congr hkeys hremarks hrows hrows' h).trans hfound

/-! ## Two mixtures of the same rows -/

/-- A row of a table, of the type with a code. -/
def rowOfType (table name : String) (typeCode : Int) : RawColumn where
  table := .plain table
  name := name
  typeCode := typeCode
  typeName := ""
  size := 0
  scale := 0
  nullable := false
  remarks := none
  defaultValue := none
  autoIncrement := false
  generated := false

/-- A source that reports some rows in every case, of tables without key. -/
def keylessSource (rows : List RawColumn) : MetadataSource where
  columns _ _ _ := .ok rows
  primaryKey _ := .ok []
  remarks _ := .ok none

/-- All tables, without the columns that tell of an audit. -/
def ticketSpec : TableSpec :=
  { tableName := "%", ignoredPatterns := [⟨"^audit_", ["AUDIT_NO"]⟩] }

/-- Tickets with two audit columns, and scans that are images only. -/
def ticketRows : List RawColumn :=
  [rowOfType "ticket" "id" (-5), rowOfType "scan" "image" 2004, rowOfType "ticket" "audit_by" 12,
   rowOfType "ticket" "audit_no" 4]

/-- The same rows, table by table. -/
def ticketRowsSorted : List RawColumn :=
  [rowOfType "scan" "image" 2004, rowOfType "ticket" "id" (-5), rowOfType "ticket" "audit_by" 12,
   rowOfType "ticket" "audit_no" 4]

/-- The tickets keep one audit column, the scans are skipped, and the other
mixture gives the same. -/
theorem introspect_accounts_tickets : ticketSpec.Readable ∧
    ∃ found, introspect {} ticketSpec (keylessSource ticketRows) = .ok found ∧
      AccountsFor {} ticketSpec (keylessSource ticketRows) ticketRows found ∧
      introspect {} ticketSpec (keylessSource ticketRowsSorted) = .ok found ∧
      (found.value.map fun model => model.columns.map (·.actualName)) = [["id", "audit_no"]] ∧
      found.warnings.filterMap Warning.skipped? = [.plain "scan"] := by
  have hspec : ticketSpec.Readable := TableSpec.readable_of_problems (by decide +kernel)
  obtain ⟨found, hfound, haccounts, hmixtures⟩ :=
    introspect_accounts {} hspec (keylessSource ticketRows) rfl
  have hsame : ∀ table, rowsOf table ticketRowsSorted = rowsOf table ticketRows := by
    intro table
    by_cases hscan : TableRef.plain "scan" = table
    · subst hscan
      decide +kernel
    · simp [rowsOf, ticketRowsSorted, ticketRows, rowOfType, hscan, List.filter_cons]
  have hsummary : (introspect {} ticketSpec (keylessSource ticketRows)).toOption.map (fun found =>
      (found.value.map fun model => model.columns.map (·.actualName),
        found.warnings.filterMap Warning.skipped?)) =
        some ([["id", "audit_no"]], [.plain "scan"]) := by decide +kernel
  rw [hfound] at hsummary
  obtain ⟨hcolumns, htold⟩ := Prod.mk.inj (Option.some.inj hsummary)
  exact ⟨hspec, found, hfound, haccounts,
    hmixtures (keylessSource ticketRowsSorted) ticketRowsSorted rfl rfl rfl hsame, hcolumns, htold⟩

end Introspection

end TableMapper
