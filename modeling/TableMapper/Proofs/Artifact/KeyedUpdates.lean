import Mathlib.Tactic.ByContra
import TableMapper.Proofs.Artifact.Document
import TableMapper.Proofs.Table.Introspected

/-!
# Updates and the primary key

An update that compares a part of the primary key changes rows it should
not. **The updates of a generated document compare the whole key that the
metadata source reports exactly if the ignore rules leave the key columns
alone, or leave none of them, or no update is wanted** (`updatesKeyed_iff`).
When they hit a part of the key the rest is taken for the whole: an update
is written, and it compares the rest only (`not_updatesKeyed_orderLines`).
-/

namespace TableMapper.MapperDocument

open Markup (Element)
open Introspection (keyRows rowsOf keptColumns markKeys)

/-! ## What keyed updates are -/

/-- A condition with one comparison per column, of the column with its own
parameter. -/
def comparing (owner : Option String) (columns : List ColumnModel) : String :=
  "where " ++ " and ".intercalate (columns.map fun c => c.escapedName ++ " = " ++ c.parameter owner)

/-- **The updates of a document are keyed** by the columns that the key rows
describe. -/
structure UpdatesKeyed (keys : List KeyColumn) (columns : List ColumnModel)
    (document : Markup.Document) :
    Prop where
  /-- An update ends with the condition over the key. -/
  update : ∀ e, document.root.elementById? "update" = some e →
    ∃ key, IsKey keys columns key ∧ e.children.getLast? = some (.text (comparing none key))
  /-- What a batch update repeats for every item ends with the condition
  over the key. -/
  batchUpdate : ∀ e, document.root.elementById? "batchUpdate" = some e →
    ∃ key repeated, IsKey keys columns key ∧ e.elements = [repeated] ∧
      repeated.children.getLast? = some (.text (comparing (some "item") key))
  /-- Without all key columns there is no update. -/
  absent : (∃ row ∈ keys, ¬ ∃ c ∈ columns, c.isNamed row.column = true) →
    document.root.elementById? "update" = none ∧ document.root.elementById? "batchUpdate" = none

/-- A column that the rows report of a table and no ignore rule hits. -/
def Available (rows : List RawColumn) (ignores : IgnoreRules) (table : TableRef)
    (name : String) : Prop :=
  ∃ row ∈ rows, row.table = table ∧ ignores.ignores row.name = false ∧
    Text.sameIgnoringCase row.name name = true

/-! ## The elements -/

section

variable {table : TableModel} {e : Element}

/-- The update of one row, if there is one. -/
theorem getLast?_update (h : Statements.update? table = some e) :
    e.children.getLast? = some (.text (comparing none table.primaryKeyColumns)) := by
  obtain ⟨-, h⟩ := Option.ite_none_right_eq_some.1 h
  cases h
  rw [Element.children_text, List.getLast?_concat]
  rfl

/-- The update of a list of rows, if there is one. -/
theorem elements_batchUpdate (h : Statements.batchUpdate? table = some e) :
    ∃ repeated, e.elements = [repeated] ∧
      repeated.children.getLast?
        = some (.text (comparing (some "item") table.primaryKeyColumns)) := by
  obtain ⟨-, h⟩ := Option.ite_none_right_eq_some.1 h
  cases h
  refine ⟨_, rfl, ?_⟩
  rw [Element.children_text, List.getLast?_concat]
  rfl

/-- Whether there is an update. -/
theorem update?_eq_none_iff : Statements.update? table = none ↔ table.rules.update = false := by
  simp [Statements.update?]

theorem batchUpdate?_eq_none_iff :
    Statements.batchUpdate? table = none ↔ table.rules.batchUpdate = false := by
  simp [Statements.batchUpdate?]

/-- **When the updates of a document are keyed**, in terms of the model. -/
theorem updatesKeyed_document_iff {keys : List KeyColumn} {columns : List ColumnModel}
    (hfresh : ∀ c ∈ columns, c.primaryKey = false)
    (hcolumns : table.columns = markKeys keys columns) :
    UpdatesKeyed keys table.columns (document table) ↔
      (table.rules.update = true ∨ table.rules.batchUpdate = true →
        ∀ row ∈ keys, ∃ c ∈ columns, c.isNamed row.column = true) := by
  have hupdate : (document table).root.elementById? "update" = Statements.update? table :=
    elementById?_document table .update
  have hbatch : (document table).root.elementById? "batchUpdate" = Statements.batchUpdate? table :=
    elementById?_document table .batchUpdate
  -- marking a key column does not rename it
  have hnamed : ∀ name, (∃ c ∈ table.columns, c.isNamed name = true) ↔ ∃ c ∈ columns,
      c.isNamed name = true := by
    intro name
    rw [hcolumns]
    exact Introspection.exists_isNamed_markKeys
  constructor
  · intro h hrules row hrow
    by_contra hmissing
    obtain ⟨hno, hnobatch⟩ := h.absent ⟨row, hrow, mt (hnamed row.column).1 hmissing⟩
    rw [hupdate, update?_eq_none_iff] at hno
    rw [hbatch, batchUpdate?_eq_none_iff] at hnobatch
    rcases hrules with hrules | hrules
    · exact Bool.noConfusion (hno.symm.trans hrules)
    · exact Bool.noConfusion (hnobatch.symm.trans hrules)
  · intro h
    have hkey : table.rules.update = true ∨ table.rules.batchUpdate = true →
        IsKey keys table.columns table.primaryKeyColumns :=
      fun hrules => TableModel.isKey_primaryKeyColumns hfresh hcolumns (h hrules)
    refine ⟨fun e he => ?_, fun e he => ?_, fun hmissing => ?_⟩
    case refine_1 =>
      rw [hupdate] at he
      exact ⟨_, hkey (.inl (Option.ite_none_right_eq_some.1 he).1), getLast?_update he⟩
    case refine_2 =>
      rw [hbatch] at he
      obtain ⟨repeated, hrepeated, hlast⟩ := elements_batchUpdate he
      exact ⟨_, repeated, hkey (.inr (Option.ite_none_right_eq_some.1 he).1), hrepeated, hlast⟩
    case refine_3 =>
      obtain ⟨row, hrow, hmissing⟩ := hmissing
      have hnone : ¬ (table.rules.update = true ∨ table.rules.batchUpdate = true) :=
        fun hrules => hmissing ((hnamed row.column).2 (h hrules row hrow))
      rw [not_or, Bool.not_eq_true, Bool.not_eq_true] at hnone
      rw [hupdate, hbatch, update?_eq_none_iff, batchUpdate?_eq_none_iff]
      exact hnone

end

/-! ## From the metadata to the document -/

variable {settings : Settings} {spec : TableSpec} {source : MetadataSource} {rows : List RawColumn}
  {ignores : IgnoreRules} {found : Warned (List TableModel)} {table : TableModel}

/-- **When the updates of a generated document are keyed by the whole
primary key**: whenever an update is wanted and a key column is left, all key
columns that the source reports are left. -/
theorem updatesKeyed_iff (named : List BuiltinPlugin) (hfound : Introspection.introspect settings spec source = .ok found)
    (hrows : source.columns spec.catalog spec.schema spec.matchesTable = .ok rows)
    (hignores : spec.ignoreRules = .ok ignores) (htable : table ∈ found.value) :
    ∃ document, (generate settings table fragment? (named.map .builtin)).value =
        [.ofDocument settings.mapperProject settings.mapperPackage table.names.mapperFile document] ∧
      (UpdatesKeyed (keyRows source table.table) table.columns document ↔
        (spec.enableUpdate = true ∨ spec.enableBatchUpdate = true →
          (∃ key ∈ keyRows source table.table, Available rows ignores table.table key.column) →
            ∀ key ∈ keyRows source table.table, Available rows ignores table.table key.column)) := by
  refine ⟨document table, value_generate (PluginChain.passes_mapperElement named)
    (PluginChain.passes_mapperDocument named) settings table, ?_⟩
  obtain ⟨renamer, ignores', hignores', hmodel⟩ :=
    Introspection.exists_columns_of_mem_introspect hfound hrows htable
  obtain rfl : ignores' = ignores := Except.ok.inj (hignores'.symm.trans hignores)
  obtain ⟨-, hcolumns, hspec, hrules, -⟩ := Introspection.ofColumns_eq_ok hmodel
  have hfresh : ∀ c ∈ keptColumns settings spec renamer ignores' (rowsOf table.table rows),
      c.primaryKey = false :=
    fun c hc => Introspection.primaryKey_of_mem_keptColumns hc
  have havailable : ∀ name,
      (∃ c ∈ keptColumns settings spec renamer ignores' (rowsOf table.table rows),
      c.isNamed name = true) ↔ Available rows ignores' table.table name := by
    intro name
    rw [Introspection.exists_mem_keptColumns_iff]
    simp only [rowsOf, List.mem_filter, decide_eq_true_eq, and_assoc, Available]
  have hany : (markKeys (keyRows source table.table) _).any (·.primaryKey) = true ↔ _ :=
    Introspection.any_primaryKey_markKeys hfresh
  -- the rules want an update if it is enabled and some column has been marked
  have hwanted : table.rules.update = true ∨ table.rules.batchUpdate = true ↔
      (spec.enableUpdate = true ∨ spec.enableBatchUpdate = true) ∧
        ∃ key ∈ keyRows source table.table, Available rows ignores' table.table key.column := by
    simp only [havailable] at hany
    rw [hrules, Rules.ofSpec, Bool.and_eq_true, Bool.and_eq_true, hany, or_and_right]
  rw [updatesKeyed_document_iff hfresh hcolumns, hwanted]
  simp only [havailable, and_imp]

/-! ## A key of two columns -/

/-- A source with one table, whose key has two columns. -/
def orderLines : MetadataSource where
  columns _ _ _ := .ok <| ["order_id", "line_no", "note"].map fun name =>
    { table := .plain "order_lines", name, typeCode := -5, typeName := "BIGINT", size := 0, scale := 0,
      nullable := false, remarks := none, defaultValue := none, autoIncrement :=
      false, generated := false }
  primaryKey _ := .ok [⟨"line_no", 2⟩, ⟨"order_id", 1⟩]
  remarks _ := .ok none

/-- The table under a specification that ignores some columns. -/
def orderLinesWithout (ignored : List String) : TableSpec :=
  { tableName := "order_lines", ignoredColumns := ignored.map (⟨·, false⟩) }

/-- What is said below of the model of the table: the columns left, whether
there is an update, and the comparisons of the columns marked as key. -/
def keySummary (table : TableModel) : TableRef × List String × Bool × List String :=
  (table.table, table.columns.map (·.actualName), table.rules.update,
    (table.columns.filter (·.primaryKey)).map (Statements.keyComparison none))

theorem exists_model_orderLines (ignored : List String)
    (expected : TableRef × List String × Bool × List String)
    (h : (Introspection.introspect {} (orderLinesWithout ignored) orderLines).toOption.map
      (fun found => found.value.map keySummary) = some [expected]) :
    ∃ found table, Introspection.introspect {} (orderLinesWithout ignored) orderLines = .ok found ∧
      table ∈ found.value ∧ keySummary table = expected := by
  cases hfound : Introspection.introspect {} (orderLinesWithout ignored) orderLines with
  | error fault => rw [hfound] at h; cases h
  | ok found =>
    rw [hfound] at h
    obtain ⟨table, htable, hsummary⟩ := List.map_eq_singleton_iff.1 (Option.some_inj.1 h)
    exact ⟨found, table, rfl, htable ▸ List.mem_singleton_self _, hsummary⟩

/-- A generated document is that of the table. -/
theorem eq_document {document : Markup.Document} (h : (generate settings table fragment? []).value =
      [.ofDocument settings.mapperProject settings.mapperPackage table.names.mapperFile document]) :
    document = MapperDocument.document table := by
  rw [value_generate (fun _ => .nil) .nil] at h
  exact (ArtifactBody.markup.inj (congrArg Artifact.body (List.cons.inj h).1)).symm

/-- With all its columns the table is updated by its whole key. -/
theorem updatesKeyed_orderLines : ∃ found table document,
    Introspection.introspect {} (orderLinesWithout []) orderLines = .ok found ∧ table ∈ found.value ∧
      (generate {} table fragment? []).value =
        [.ofDocument "./generated/resources" "mapper" table.names.mapperFile document] ∧
      document.root.elementById? "update" ≠ none ∧
      UpdatesKeyed (keyRows orderLines table.table) table.columns document := by
  obtain ⟨found, table, hfound, htable, hsummary⟩ := exists_model_orderLines []
    (.plain "order_lines", ["order_id", "line_no", "note"], true,
      ["order_id = #\x7borderId\x7d", "line_no = #\x7blineNo\x7d"]) (by decide +kernel)
  obtain ⟨hname, -, hupdate, -⟩ : table.table = .plain "order_lines" ∧ _ ∧
      table.rules.update = true ∧ _ := by
    simpa [keySummary] using hsummary
  obtain ⟨document, hdocument, hkeyed⟩ := updatesKeyed_iff [] hfound rfl rfl htable
  refine ⟨found, table, document, hfound, htable, hdocument, ?_, hkeyed.2 fun _ _ key hkey => ?_⟩
  · rw [eq_document hdocument, show "update" = FragmentId.update.name from rfl,
      elementById?_document]
    exact fun hnone => Bool.noConfusion (hupdate.symm.trans (update?_eq_none_iff.1 hnone))
  · rw [hname] at hkey ⊢
    rcases List.mem_cons.1 hkey with rfl | hkey
    · exact ⟨_, List.mem_cons_of_mem _ List.mem_cons_self, rfl, rfl, rfl⟩
    · obtain rfl := List.mem_singleton.1 hkey
      exact ⟨_, List.mem_cons_self, rfl, rfl, rfl⟩

/-- **A part of the key is taken for the whole**: without the column of the
line an update compares the order alone, and so changes every line of it. -/
theorem not_updatesKeyed_orderLines : ∃ found table document update,
    Introspection.introspect {} (orderLinesWithout ["line_no"]) orderLines = .ok found ∧ table ∈ found.value ∧
      (generate {} table fragment? []).value =
        [.ofDocument "./generated/resources" "mapper" table.names.mapperFile document] ∧
      document.root.elementById? "update" = some update ∧
      update.children.getLast? = some (.text "where order_id = #\x7borderId\x7d") ∧
      ¬ UpdatesKeyed (keyRows orderLines table.table) table.columns document := by
  obtain ⟨found, table, hfound, htable, hsummary⟩ := exists_model_orderLines ["line_no"]
    (.plain "order_lines", ["order_id", "note"], true, ["order_id = #\x7borderId\x7d"])
    (by decide +kernel)
  obtain ⟨hname, hcolumns, hupdate, hkey⟩ : table.table = .plain "order_lines" ∧
      table.columns.map (·.actualName) = ["order_id", "note"] ∧ table.rules.update = true ∧
      (table.columns.filter (·.primaryKey)).map (Statements.keyComparison none) =
        ["order_id = #\x7borderId\x7d"] := by
    simpa [keySummary] using hsummary
  have helement : (document table).root.elementById? "update" = Statements.update? table :=
    elementById?_document table .update
  obtain ⟨update, hsome⟩ := Option.ne_none_iff_exists'.1 fun hnone =>
    Bool.noConfusion (hupdate.symm.trans (update?_eq_none_iff.1 hnone))
  refine ⟨found, table, document table, update, hfound, htable,
    value_generate (fun _ => .nil) .nil _ _, helement.trans hsome, ?_, fun hkeyed => ?_⟩
  · obtain ⟨c, hc, hcomparison⟩ := List.map_eq_singleton_iff.1 hkey
    have hsingle : table.primaryKeyColumns = [c] := by
      rw [TableModel.primaryKeyColumns, hc, List.mergeSort_singleton]
    have htext : comparing none [c] = "where " ++ Statements.keyComparison none c := rfl
    rw [getLast?_update hsome, hsingle, htext, hcomparison]
    rfl
  · have habsent := (hkeyed.absent ⟨⟨"line_no", 2⟩, List.mem_cons_self, ?_⟩).1
    · rw [helement, hsome] at habsent
      cases habsent
    · rintro ⟨c, hc, hline⟩
      have hnone : (table.columns.map (·.actualName)).all fun name =>
        !Text.sameIgnoringCase name "line_no" := by
        rw [hcolumns]
        decide
      rw [List.all_map, List.all_eq_true] at hnone
      exact absurd hline (by simpa [ColumnModel.isNamed] using hnone c hc)

end TableMapper.MapperDocument
