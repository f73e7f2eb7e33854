import Mathlib.Data.List.Pairwise
import Mathlib.Tactic.ByContra
import TableMapper.Proofs.Table.Accounting
import TableMapper.Run.Generation

/-!
# The order of key rows

A metadata source may report the rows of a key in any order, and each of them
marks the first column that it names. As long as the rows name different
columns, no two of them mark the same one, and they can be exchanged: **the
order in which key rows are reported makes no difference to the models, and
so to a run, and the key columns of a model stand in the order of their
places** (`Introspection.keyOrder_immaterial`).
-/

namespace TableMapper

/-! ## Keys -/

/-- **The rows of a key**: they name different columns, and different places
in the key. -/
structure IsKeyRows (keys : List KeyColumn) : Prop where
  columns : keys.Pairwise fun a b => Text.sameIgnoringCase a.column b.column = false
  places : keys.Pairwise fun a b => a.sequence ≠ b.sequence

/-- **Two sources differ in the order of key rows only**, and only where these
are the rows of a key. -/
structure MetadataSource.Reorders (source other : MetadataSource) : Prop where
  columns : other.columns = source.columns
  remarks : other.remarks = source.remarks
  keys : ∀ table, other.primaryKey table = source.primaryKey table ∨
    ∃ keys keys', source.primaryKey table = .ok keys ∧ other.primaryKey table = .ok keys' ∧
      keys'.Perm keys ∧ IsKeyRows keys

/-- **A model has a key in its order.** -/
structure HasKeyInOrder (keys : List KeyColumn) (model : TableModel) : Prop where
  /-- Row by row, in the order of their places, the columns that are there. -/
  columns : model.primaryKeyColumns
      = (keys.mergeSort fun a b => a.sequence ≤ b.sequence).filterMap fun key =>
    model.columns.find? (·.isNamed key.column)
  /-- Each has the place that its row gives it. -/
  places : ∀ key ∈ keys, ∀ c, model.columns.find? (·.isNamed key.column) = some c →
    c.primaryKey = true ∧ c.keySequence = key.sequence
  ascending : model.primaryKeyColumns.Pairwise fun a b => a.keySequence < b.keySequence
  /-- No other column is in the key. -/
  others : ∀ c ∈ model.columns, (∀ key ∈ keys, c.isNamed key.column = false) →
    c.primaryKey = false ∧ c.keySequence = 0

namespace Introspection

/-! ## Exchanging key rows -/

section

variable {c : ColumnModel} {keys keys' : List KeyColumn} {key : KeyColumn}
  {columns : List ColumnModel}

/-- At most one row of a key names a column. -/
theorem filter_isNamed_cases
    (hkeys : keys.Pairwise fun a b => Text.sameIgnoringCase a.column b.column = false) :
    (keys.filter fun key => c.isNamed key.column) = [] ∨
      ∃ key, (keys.filter fun key => c.isNamed key.column) = [key] := by
  have hnamed : ∀ key ∈ keys.filter fun key => c.isNamed key.column, c.isNamed key.column = true :=
    fun key hkey => (List.mem_filter.1 hkey).2
  have hpairs := hkeys.filter fun key => c.isNamed key.column
  cases hrows : keys.filter fun key => c.isNamed key.column with
  | nil => exact .inl rfl
  | cons first rest => cases rest with
  | nil => exact .inr ⟨first, rfl⟩
  | cons second rest =>
    rw [hrows] at hnamed hpairs
    have hfirst := hnamed first List.mem_cons_self
    rw [ColumnModel.isNamed, Text.sameIgnoringCase_comm] at hfirst
    have hsame := Text.sameIgnoringCase_trans hfirst
      (hnamed second (List.mem_cons_of_mem _ List.mem_cons_self))
    rw [List.rel_of_pairwise_cons hpairs List.mem_cons_self] at hsame
    exact Bool.noConfusion hsame

/-- **Rows of a key can be marked in any order.** -/
theorem markKeys_eq_of_perm (hperm : keys'.Perm keys)
    (hkeys : keys.Pairwise fun a b => Text.sameIgnoringCase a.column b.column = false) :
    markKeys keys' columns = markKeys keys columns := by
  induction columns generalizing keys keys' with
  | nil => rw [markKeys_nil, markKeys_nil]
  | cons c rest ih =>
    have hown : (keys'.filter fun key => c.isNamed key.column) = keys.filter fun key =>
      c.isNamed key.column := by
      have hfilter := hperm.filter fun key => c.isNamed key.column
      obtain hnone | ⟨key, hone⟩ := filter_isNamed_cases (c := c) hkeys
      · rw [hnone] at hfilter ⊢
        exact hfilter.eq_nil
      · rw [hone] at hfilter ⊢
        exact List.perm_singleton.1 hfilter
    rw [markKeys_cons, markKeys_cons, hown, ih (hperm.filter _) (hkeys.filter _)]

/-- The first column that a row of a key names has its place. -/
theorem place_of_find?_markKeys
    (hkeys : keys.Pairwise fun a b => Text.sameIgnoringCase a.column b.column = false)
    (hkey : key ∈ keys) (h : (markKeys keys columns).find? (·.isNamed key.column) = some c) :
    c.primaryKey = true ∧ c.keySequence = key.sequence := by
  induction columns generalizing keys with
  | nil =>
    rw [markKeys_nil] at h
    exact nomatch h
  | cons first rest ih =>
    rw [markKeys_cons] at h
    by_cases hfirst : first.isNamed key.column = true
    · rw [List.find?_cons_of_pos (by rwa [isNamed_marked])] at h
      have hmem : key ∈ keys.filter fun key => first.isNamed key.column :=
        List.mem_filter.2 ⟨hkey, hfirst⟩
      obtain hnone | ⟨one, hone⟩ := filter_isNamed_cases (c := first) hkeys
      · rw [hnone] at hmem
        exact absurd hmem List.not_mem_nil
      · rw [hone] at hmem h
        obtain rfl := List.mem_singleton.1 hmem
        cases h
        exact ⟨rfl, rfl⟩
    · rw [List.find?_cons_of_neg (by rwa [isNamed_marked])] at h
      exact ih (hkeys.filter _) (List.mem_filter.2 ⟨hkey, by simpa using hfirst⟩) h

/-- A column that no key row names is left alone. -/
theorem mem_of_mem_markKeys (h : c ∈ markKeys keys columns)
    (hnone : ∀ key ∈ keys, c.isNamed key.column = false) :
    c ∈ columns := by
  induction columns generalizing keys with
  | nil =>
    rw [markKeys_nil] at h
    exact h
  | cons first rest ih =>
    rw [markKeys_cons] at h
    rcases List.mem_cons.1 h with rfl | h
    · simp only [isNamed_marked] at hnone
      rw [List.filter_eq_nil_iff.2 fun key hkey => Bool.eq_false_iff.1 (hnone key hkey)]
      exact List.mem_cons_self
    · exact List.mem_cons_of_mem _ (ih h fun key hkey => hnone key (List.mem_filter.1 hkey).1)

end

/-! ## The key of a model -/

section

variable {model : TableModel} {keys : List KeyColumn} {columns : List ColumnModel}
  (hfresh : ∀ c ∈ columns, c.primaryKey = false ∧ c.keySequence = 0)
    (hcolumns : model.columns = markKeys keys columns)
include hfresh hcolumns

/-- Key columns that one name names are the same. -/
theorem eq_of_isNamed {c d : ColumnModel} {name : String} (hc : c ∈ model.primaryKeyColumns)
    (hd : d ∈ model.primaryKeyColumns) (hcname : c.isNamed name = true)
    (hdname : d.isNamed name = true) : c = d := by
  have hsymm : Std.Symm fun a b : ColumnModel => a.isNamed b.actualName = false :=
    ⟨fun a b hab => Bool.eq_false_iff.2 fun hba =>
      Bool.eq_false_iff.1 hab (ColumnModel.isNamed_symm hba)⟩
  have hdistinct := TableModel.distinct_primaryKeyColumns (fun c hc => (hfresh c hc).1) hcolumns
  by_contra hne
  exact Bool.eq_false_iff.1 (hdistinct.forall hc hd hne)
    (ColumnModel.isNamed_of_isNamed hcname hdname)

variable (hkeys : IsKeyRows keys)
include hkeys

/-- The key columns are the first that the rows of the key name. -/
theorem mem_primaryKeyColumns_iff {c : ColumnModel} : c ∈ model.primaryKeyColumns ↔
    ∃ key ∈ keys, model.columns.find? (·.isNamed key.column) = some c := by
  have hfound : ∀ key ∈ keys, ∀ d, model.columns.find? (·.isNamed key.column) = some d →
      d ∈ model.primaryKeyColumns := by
    intro key hkey d hd
    have hplace := place_of_find?_markKeys hkeys.columns hkey (hcolumns ▸ hd)
    exact TableModel.mem_primaryKeyColumns.2 ⟨List.mem_of_find?_eq_some hd, hplace.1⟩
  constructor
  · intro hc
    obtain ⟨key, hkey, hnamed⟩ := exists_of_keyPlace?
      (TableModel.keyPlace?_of_mem_primaryKeyColumns (fun c hc => (hfresh c hc).1) hcolumns hc)
    have hsome : (model.columns.find? (·.isNamed key.column)).isSome = true :=
      List.find?_isSome.2 ⟨c, (TableModel.mem_primaryKeyColumns.1 hc).1, hnamed⟩
    -- the first column that the row names is a key column too, and there is only one
    obtain ⟨d, hd⟩ := Option.isSome_iff_exists.1 hsome
    have hdnamed : d.isNamed key.column = true :=
      List.find?_some (p := (ColumnModel.isNamed · key.column)) hd
    have heq := eq_of_isNamed hfresh hcolumns (hfound key hkey d hd) hc hdnamed hnamed
    exact ⟨key, hkey, hd.trans (congrArg some heq)⟩
  · rintro ⟨key, hkey, hd⟩
    exact hfound key hkey c hd

/-- No two key columns have the same place. -/
theorem ascending_primaryKeyColumns :
    model.primaryKeyColumns.Pairwise fun a b => a.keySequence < b.keySequence := by
  have hplaces : Std.Symm fun a b : KeyColumn => a.sequence ≠ b.sequence := ⟨fun a b => Ne.symm⟩
  have hdistinct := TableModel.distinct_primaryKeyColumns (fun c hc => (hfresh c hc).1) hcolumns
  refine ((TableModel.ordered_primaryKeyColumns model).and hdistinct).imp_of_mem
    fun {a b} ha hb hab => ?_
  obtain ⟨key, hkey, hfind⟩ := (mem_primaryKeyColumns_iff hfresh hcolumns hkeys).1 ha
  obtain ⟨key', hkey', hfind'⟩ := (mem_primaryKeyColumns_iff hfresh hcolumns hkeys).1 hb
  refine Nat.lt_of_le_of_ne hab.1 fun hsame => ?_
  rw [(place_of_find?_markKeys hkeys.columns hkey (hcolumns ▸ hfind)).2,
    (place_of_find?_markKeys hkeys.columns hkey' (hcolumns ▸ hfind')).2] at hsame
  have hrow : key = key' := by
    by_contra hne
    exact hkeys.places.forall hkey hkey' hne hsame
  have heq : a = b := Option.some.inj (hfind.symm.trans (hrow ▸ hfind'))
  rw [heq, ColumnModel.isNamed, Text.sameIgnoringCase_self] at hab
  exact Bool.noConfusion hab.2

omit hfresh hcolumns in
/-- The rows of a key in the order of their places. -/
theorem ascending_mergeSort :
    (keys.mergeSort fun a b => a.sequence ≤ b.sequence).Pairwise fun a b =>
  a.sequence < b.sequence := by
  have hdistinct :=
    ((List.mergeSort_perm keys fun a b => a.sequence ≤ b.sequence).pairwise_iff
      Ne.symm).2 hkeys.places
  exact ((pairwise_le_mergeSort KeyColumn.sequence keys).and hdistinct).imp fun h =>
    Nat.lt_of_le_of_ne h.1 h.2

/-- **A model has its key in order.** -/
theorem hasKeyInOrder : HasKeyInOrder keys model where
  columns := by
    have hplace : ∀ key ∈ keys, ∀ c, model.columns.find? (·.isNamed key.column) = some c →
        c.primaryKey = true ∧ c.keySequence = key.sequence :=
      fun key hkey c hc => place_of_find?_markKeys hkeys.columns hkey (hcolumns ▸ hc)
    have hperm := List.mergeSort_perm keys fun a b => a.sequence ≤ b.sequence
    have hirrefl : Std.Irrefl fun a b : ColumnModel => a.keySequence < b.keySequence :=
      ⟨fun a => Nat.lt_irrefl _⟩
    have hantisymm : Std.Antisymm fun a b : ColumnModel => a.keySequence < b.keySequence :=
      ⟨fun a b hab hba => absurd hab (Nat.lt_asymm hba)⟩
    -- both sides ascend, and have the same members
    refine List.Pairwise.eq_of_mem_iff (ascending_primaryKeyColumns hfresh hcolumns hkeys)
      ?_ fun c => ?_
    case refine_1 =>
      rw [List.pairwise_filterMap]
      refine (ascending_mergeSort hkeys).imp_of_mem fun {a b} ha hb hab c hc d hd => ?_
      rw [(hplace a (hperm.mem_iff.1 ha) c hc).2, (hplace b (hperm.mem_iff.1 hb) d hd).2]
      exact hab
    case refine_2 =>
      rw [mem_primaryKeyColumns_iff hfresh hcolumns hkeys, List.mem_filterMap]
      simp only [hperm.mem_iff]
  places key hkey c hc := place_of_find?_markKeys hkeys.columns hkey (hcolumns ▸ hc)
  ascending := ascending_primaryKeyColumns hfresh hcolumns hkeys
  others c hc hnone := hfresh c (mem_of_mem_markKeys (hcolumns ▸ hc) hnone)

end

/-! ## Sources -/

variable {settings : Settings} {spec : TableSpec} {source other : MetadataSource}

theorem withPrimaryKey_reorder (h : source.Reorders other) (table : TableRef)
    (columns : List ColumnModel) :
    withPrimaryKey table other columns = withPrimaryKey table source columns := by
  obtain hsame | ⟨keys, keys', hkeys, hkeys', hperm, hrows⟩ := h.keys table
  · rw [withPrimaryKey, withPrimaryKey, hsame]
  · rw [withPrimaryKey, withPrimaryKey, hkeys, hkeys']
    exact congrArg Warned.quiet (markKeys_eq_of_perm hperm hrows.columns)

theorem buildTables_reorder (h : source.Reorders other) (groups : Groups) :
    buildTables settings spec other groups = buildTables settings spec source groups := by
  induction groups with
  | nil => rfl
  | cons group rest ih =>
    have hone : buildTable settings spec group.1 other group.2
        = buildTable settings spec group.1 source group.2 := by
      simp only [buildTable, withPrimaryKey_reorder h, remarksOf, h.remarks]
    rw [buildTables, buildTables, ih, hone]

/-- **Introspection does not depend on the order of key rows.** -/
theorem introspect_reorder (h : source.Reorders other) :
    introspect settings spec other = introspect settings spec source := by
  simp only [introspect, h.columns, buildTables_reorder h]

end Introspection

/-! ## Runs

Of its source a run reads what introspection does. -/

namespace Job

variable (job : Job) (given : Option MetadataSource)

theorem introspectSpecs_source (source : MetadataSource) (specs : List TableSpec) :
    { job with source := given }.introspectSpecs source specs
      = job.introspectSpecs source specs := by
  induction specs with
  | nil => rfl
  | cons spec rest ih => rw [introspectSpecs, introspectSpecs, ih]

theorem generateTables_source (plugins : PluginChain) (tables : List TableModel) :
    { job with source := given }.generateTables plugins tables
      = job.generateTables plugins tables := by
  induction tables with
  | nil => rfl
  | cons table rest ih => rw [generateTables, generateTables, ih]

theorem writeFiles_source (artifacts : List Artifact) :
    { job with source := given }.writeFiles artifacts = job.writeFiles artifacts := by
  induction artifacts with
  | nil => rfl
  | cons artifact rest ih => rw [writeFiles, writeFiles, ih]

theorem introspectSpecs_reorder {source other : MetadataSource} (h : source.Reorders other)
    (specs : List TableSpec) :
    job.introspectSpecs other specs = job.introspectSpecs source specs := by
  induction specs with
  | nil => rfl
  | cons spec rest ih =>
    rw [introspectSpecs, introspectSpecs, ih, Introspection.introspect_reorder h]

/-- **A run does not depend on the order of key rows.** -/
theorem generate_reorder {source other : MetadataSource}
    (h : source.Reorders other) (tree : FileTree) :
    { job with source := some other }.generate tree
      = { job with source := some source }.generate tree := by
  have hgeneration : { job with source := some other }.generation
      = { job with source := some source }.generation := by
    simp only [generation, metadata, pluginChain, introspectAll, generateAll, writeAll,
      introspectSpecs_source, generateTables_source, writeFiles_source]
    cases Failure.ofProblems job.settings.problems with
    | error failure => rfl
    | ok _ =>
      show (get >>= fun _ => pure other >>= _ : Run Unit)
          = (get >>= fun _ => pure source >>= _ : Run Unit)
      simp only [pure_bind, introspectSpecs_reorder job h]
  rw [generate, generate, hgeneration]

end Job

/-! ## The order of key rows -/

namespace Introspection

variable {settings : Settings} {spec : TableSpec} {source other : MetadataSource}

/-- The columns of a model are the rows that are kept, whatever its key. -/
theorem map_actualName_of_mem_introspect {rows : List RawColumn} {found : Warned (List TableModel)}
    (hrows : source.columns spec.catalog spec.schema spec.matchesTable = .ok rows)
    (hfound : introspect settings spec source = .ok found) {model : TableModel}
    (hmodel : model ∈ found.value) :
    model.columns.map (·.actualName) = (spec.keptRows (rowsOf model.table rows)).map (·.name) := by
  obtain ⟨renamer, ignores, hignores, hbuilt⟩ :=
    exists_columns_of_mem_introspect hfound hrows hmodel
  rw [(ofColumns_eq_ok hbuilt).2.1, map_actualName_markKeys, keptColumns,
    TableSpec.filter_ignores hignores, List.map_map]
  rfl

theorem hasKeyInOrder_of_mem_introspect {found : Warned (List TableModel)}
    (hfound : introspect settings spec source = .ok found) {model : TableModel}
    (hmodel : model ∈ found.value)
    {keys : List KeyColumn} (hkeys : source.primaryKey model.table = .ok keys)
    (hrows : IsKeyRows keys) :
    HasKeyInOrder keys model := by
  obtain ⟨rows, built, -, hbuild, hvalue, -⟩ := exists_built_of_mem_introspect hfound hmodel
  obtain ⟨renamer, ignores, -, hmodel⟩ := exists_columns_of_buildTable hbuild hvalue
  have hcolumns := (ofColumns_eq_ok hmodel).2.1
  rw [keyRows, hkeys] at hcolumns
  refine hasKeyInOrder (fun c hc => ?_) hcolumns hrows
  obtain ⟨row, -, rfl⟩ := List.mem_map.1 hc
  exact ⟨rfl, rfl⟩

/-- **The order in which the rows of a key are reported makes no difference**:
not to introspection, and not to a run with what it generates. The columns of
a model are the rows that are kept, and its key columns those that the rows of
the key name, in the order of their places. -/
theorem keyOrder_immaterial (h : source.Reorders other) :
    (∀ settings spec, introspect settings spec other = introspect settings spec source) ∧
    (∀ settings spec rows found, source.columns spec.catalog spec.schema spec.matchesTable = .ok rows →
      introspect settings spec source = .ok found → ∀ model ∈ found.value,
        model.columns.map (·.actualName) = (spec.keptRows (rowsOf model.table rows)).map (·.name) ∧
        ∀ keys, source.primaryKey model.table = .ok keys → IsKeyRows keys → HasKeyInOrder keys model) ∧
    ∀ (job : Job) tree, { job with source := some other }.generate tree =
      { job with source := some source }.generate tree := by
  refine ⟨fun _ _ => introspect_reorder h,
    fun _ _ rows found hrows hfound model hmodel => ⟨?_, fun keys hkeys hkey => ?_⟩,
    fun job => job.generate_reorder h⟩
  · exact map_actualName_of_mem_introspect hrows hfound hmodel
  · exact hasKeyInOrder_of_mem_introspect hfound hmodel hkeys hkey

/-- A table whose columns stand in another order than in its key, with the
rows of the key in some order. -/
def keyedLines (keys : List KeyColumn) : MetadataSource where
  columns _ _ _ := .ok <| ["line_no", "note", "order_id"].map fun name =>
    rowOfType "order_lines" name (-5)
  primaryKey _ := .ok keys
  remarks _ := .ok none

/-- A key with its last column first. -/
theorem keyOrder_immaterial_keyedLines :
    (keyedLines [⟨"LINE_NO", 2⟩, ⟨"order_id", 1⟩]).Reorders (keyedLines [⟨"order_id", 1⟩, ⟨"LINE_NO", 2⟩]) ∧
    ∃ found model, introspect {} (.named "order_lines") (keyedLines [⟨"order_id", 1⟩, ⟨"LINE_NO", 2⟩]) = .ok found ∧
      model ∈ found.value ∧ HasKeyInOrder [⟨"LINE_NO", 2⟩, ⟨"order_id", 1⟩] model ∧
      model.columns.map (fun c => (c.actualName, c.primaryKey, c.keySequence)) =
        [("line_no", true, 2), ("note", false, 0), ("order_id", true, 1)] := by
  have hkey : IsKeyRows [⟨"LINE_NO", 2⟩, ⟨"order_id", 1⟩] := ⟨by decide, by decide⟩
  have hreorders : (keyedLines [⟨"LINE_NO", 2⟩, ⟨"order_id", 1⟩]).Reorders
      (keyedLines [⟨"order_id", 1⟩, ⟨"LINE_NO", 2⟩]) :=
    ⟨rfl, rfl, fun _ => .inr ⟨_, _, rfl, rfl, .swap _ _ _, hkey⟩⟩
  obtain ⟨hsame, hmodels, -⟩ := keyOrder_immaterial hreorders
  have hsummary : (introspect {} (.named "order_lines")
      (keyedLines [⟨"LINE_NO", 2⟩, ⟨"order_id", 1⟩])).toOption.map
      (fun found => found.value.map fun model =>
        model.columns.map fun c => (c.actualName, c.primaryKey, c.keySequence)) =
        some [[("line_no", true, 2), ("note", false, 0), ("order_id", true, 1)]] := by
          decide +kernel
  cases hfound : introspect {} (.named "order_lines")
    (keyedLines [⟨"LINE_NO", 2⟩, ⟨"order_id", 1⟩]) with
  | error fault => rw [hfound] at hsummary; cases hsummary
  | ok found =>
    rw [hfound] at hsummary
    obtain ⟨model, hmodel, hcolumns⟩ := List.map_eq_singleton_iff.1 (Option.some.inj hsummary)
    have hmem : model ∈ found.value := hmodel ▸ List.mem_singleton_self _
    exact ⟨hreorders, found, model, (hsame _ _).trans hfound, hmem,
      (hmodels _ _ _ found rfl hfound model hmem).2 _ rfl hkey, hcolumns⟩

end Introspection

end TableMapper
