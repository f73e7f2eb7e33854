import TableMapper.Proofs.Artifact.NamedProperties

/-!
# The properties that whole statements name

**A selection of a plain table names only properties of the query condition
and the fields for ordering and paging, every other statement only properties
of columns** (`refersOnly_select`, `refersOnly_write`). What a statement
includes is looked up in the same document.
-/

namespace TableMapper

open Markup (Element Node Document)

namespace MapperDocument

/-! ## What element a fragment is -/

/-- The name of the element of a fragment. -/
def elementName : FragmentId → String
  | .resultMap => "resultMap"
  | .list | .getByQc | .count => "select"
  | .insert | .batchInsert => "insert"
  | .update | .batchUpdate => "update"
  | _ => "sql"

theorem name_withGeneratedKey (table : TableModel) (batch : Bool) (e : Element) :
    (Statements.withGeneratedKey table batch e).name = e.name := by
  rw [Statements.withGeneratedKey]
  split
  · split
    · rfl
    · split <;> rfl
  · rfl

theorem name_ordered (table : TableModel) : (ordered table).name = "select" := by
  rw [ordered]
  split
  · split <;> rfl
  · rfl

theorem attributes_ordered (table : TableModel) :
    (ordered table).attributes = (Statements.selectFrom table .list).attributes := by
  rw [ordered]
  split
  · split <;> rfl
  · rfl

theorem name_of_fragment? {table : TableModel} {id : FragmentId} {e : Element}
    (h : fragment? table id = some e) :
    e.name = elementName id := by
  cases id with
  | resultMap | set | batchSet =>
    cases h
    simp [Fragments.resultMap, Fragments.set, Fragments.batchSet, Element.foldl_child,
      Fragments.sql, elementName]
  | baseColumn | tableName | batchSetValue => cases h; rfl
  | condition =>
    cases h
    rw [Fragments.condition, Element.foldl_child]
    split <;> rfl
  | pageLimit =>
    obtain ⟨-, h⟩ := Option.ite_none_right_eq_some.1 h
    revert h
    split
    · rintro ⟨⟩
      rfl
    · exact fun h => by cases h
  | list =>
    rw [fragment?, list?_eq] at h
    obtain ⟨-, h⟩ := Option.ite_none_right_eq_some.1 h
    cases h
    split
    · exact name_ordered table
    · exact name_ordered table
  | insert | batchInsert =>
    obtain ⟨-, h⟩ := Option.ite_none_right_eq_some.1 h
    cases h
    exact name_withGeneratedKey table _ _
  | getByQc | count | update | batchUpdate =>
    obtain ⟨-, h⟩ := Option.ite_none_right_eq_some.1 h
    cases h
    rfl

/-- The elements of a document are its fragments. -/
theorem mem_elements_document_iff {table : TableModel} {e : Element} :
    e ∈ (document table).root.elements ↔ ∃ id, fragment? table id = some e := by
  rw [Element.elements, document, Element.filterMap_element?_toNode, fragments, List.mem_filterMap]
  constructor
  · rintro ⟨id, -, h⟩
    exact ⟨id, h⟩
  · rintro ⟨id, h⟩
    exact ⟨id, FragmentId.mem_all id, h⟩

end MapperDocument

namespace Reference

open MapperDocument (document fragment? elementName)

section

variable {table : TableModel} {scope : List String} {P : String → Prop}

/-- An inclusion refers to what the included piece refers to. -/
theorem refersOnly_inclusion (id : FragmentId)
    (h : ∀ piece, fragment? table id = some piece →
      RefersOnly (document table) scope piece.toNode P) :
    RefersOnly (document table) scope (Fragments.inclusion id).toNode P := by
  intro property hrefers
  cases hrefers with
  | read hpath => cases hpath
  | key hkey => cases hkey
  | child hnode => cases hnode
  | inclusion hid hpiece hrefers =>
    obtain rfl : id.name = _ := Option.some_inj.1 hid
    rw [MapperDocument.elementById?_document] at hpiece
    exact h _ hpiece _ hrefers

/-- Pieces of SQL that a statement holds as they are. -/
theorem refersOnly_constant {s : String} (h : Inert s.toList) :
    RefersOnly (document table) scope (.text s) P :=
  refersOnly_silent (parameters_inert h)

/-- A clause that includes assignments. -/
theorem refersOnly_setOf {id : FragmentId} {piece : Element}
    (hpiece : fragment? table id = some piece)
    (h : RefersOnly (document table) scope piece.toNode P) :
    RefersOnly (document table) scope (Statements.setOf id).toNode P :=
  refersOnly_plain "set" (by decide) rfl rfl rfl (List.forall_mem_singleton.2
    (refersOnly_inclusion id fun piece' hpiece' => by
      obtain rfl : piece = piece' := Option.some_inj.1 (hpiece.symm.trans hpiece')
      exact h))

/-- The loop of a batch statement refers to what it repeats. -/
theorem refersOnly_loop {separator : String} {children : List Node}
    (h : ∀ node ∈ children, RefersOnly (document table) ["item", "index", "list"] node P) :
    RefersOnly (document table) ["list"]
      (Element.toNode { Statements.loop separator with children }) P := by
  refine refersOnly_element (show "foreach" ≠ "include" by decide)
    (fun path hpath property hproperty => ?_)
    (fun property hkey => by cases hkey) h
  obtain rfl : path = "list" := by
    simpa [attributePaths, List.lookup_cons, Statements.loop] using hpath
  cases hproperty

variable (hplain : Plain table)
include hplain

theorem refersOnly_includeTableName :
    RefersOnly (document table) scope (Fragments.inclusion .tableName).toNode P :=
  refersOnly_inclusion .tableName fun piece hpiece => by
    obtain rfl := Option.some_inj.1 hpiece
    exact refersOnly_tableName hplain

/-! ## Selections -/

section

variable (hquery : QueryFieldsOfColumns table)
include hquery

theorem refersOnly_where :
    RefersOnly (document table) [] Statements.whereCondition.toNode (IsQueryProperty table) :=
  refersOnly_plain "where" (by decide) rfl rfl rfl (List.forall_mem_singleton.2
    (refersOnly_inclusion .condition fun piece hpiece => by
      obtain rfl := Option.some_inj.1 hpiece
      exact refersOnly_condition hplain hquery))

/-- What every selection of rows holds. -/
theorem refersOnly_selectFrom (id : FragmentId) :
    ∀ node ∈ (Statements.selectFrom table id).children,
    RefersOnly (document table) [] node (IsQueryProperty table) := by
  have hcolumns : RefersOnly (document table) [] (Fragments.inclusion .baseColumn).toNode
      (IsQueryProperty table) :=
    refersOnly_inclusion .baseColumn fun piece hpiece => by
      obtain rfl := Option.some_inj.1 hpiece
      exact refersOnly_baseColumn hplain
  exact List.forall_mem_cons.2 ⟨refersOnly_constant (by decide), List.forall_mem_cons.2 ⟨hcolumns,
    List.forall_mem_cons.2 ⟨refersOnly_constant (by decide), List.forall_mem_cons.2
      ⟨refersOnly_includeTableName hplain,
        List.forall_mem_singleton.2 (refersOnly_where hplain hquery)⟩⟩⟩⟩

/-- The selection with the clause that orders it. -/
theorem refersOnly_ordered : ∀ node ∈ (MapperDocument.ordered table).children,
    RefersOnly (document table) [] node (IsQueryProperty table) := by
  rw [MapperDocument.ordered]
  split
  next field hfield =>
    split
    · refine List.forall_mem_append.2
        ⟨refersOnly_selectFrom hplain hquery .list, List.forall_mem_singleton.2 ?_⟩
      have hnameable := hplain.orderBy field hfield
      have hread : parameters ("order by $\x7b" ++ field ++ "\x7d") = [field] := by
        have hlead : Reads ("order by".toList ++ [' ']) [] := reads_inert (by decide) (by decide)
        have hall := hlead.append (reads_field (.inr rfl : '$' = '#' ∨ _) hnameable)
        refine Reads.parameters_eq ?_
        simpa [String.toList_append] using hall
      have hproperty : ∀ property, propertyIn [] field = some property →
          IsQueryProperty table property := by
        intro property hproperty
        obtain rfl : field = property := Option.some_inj.1 hproperty
        exact .inr (by simp [pagingFields, hfield])
      refine refersOnly_present "if" (by decide) hnameable hproperty
        (refersOnly_text fun path hpath => ?_)
      rw [hread, List.mem_singleton] at hpath
      rw [hpath]
      exact hproperty
    · exact refersOnly_selectFrom hplain hquery .list
  next => exact refersOnly_selectFrom hplain hquery .list

/-- **Selections name properties of the query condition.** -/
theorem refersOnly_select {id : FragmentId} (hid : elementName id = "select") {e : Element}
    (he : fragment? table id = some e) :
    RefersOnly (document table) [] e.toNode (IsQueryProperty table) := by
  have hname : e.name = "select" := (MapperDocument.name_of_fragment? he).trans hid
  cases id with
  | list =>
    rw [fragment?, MapperDocument.list?_eq] at he
    obtain ⟨-, he⟩ := Option.ite_none_right_eq_some.1 he
    cases he
    have hattributes := MapperDocument.attributes_ordered table
    split
    · refine refersOnly_plain "select" (by decide) (MapperDocument.name_ordered table)
        (by rw [Element.attributes_child, hattributes]; rfl)
          (by rw [Element.attributes_child, hattributes]; rfl) ?_
      refine List.forall_mem_append.2
        ⟨refersOnly_ordered hplain hquery, List.forall_mem_singleton.2 ?_⟩
      exact refersOnly_inclusion .pageLimit fun piece hpiece => refersOnly_pageLimit hplain hpiece
    · exact refersOnly_plain "select" (by decide) (MapperDocument.name_ordered table)
        (by rw [hattributes]; rfl)
        (by rw [hattributes]; rfl) (refersOnly_ordered hplain hquery)
  | getByQc =>
    obtain ⟨-, he⟩ := Option.ite_none_right_eq_some.1 he
    cases he
    exact refersOnly_plain "select" (by decide) rfl rfl rfl (List.forall_mem_append.2
      ⟨refersOnly_selectFrom hplain hquery .getByQc,
        List.forall_mem_singleton.2 (refersOnly_constant (by decide))⟩)
  | count =>
    obtain ⟨-, he⟩ := Option.ite_none_right_eq_some.1 he
    cases he
    exact refersOnly_plain "select" (by decide) rfl rfl rfl (List.forall_mem_cons.2
      ⟨refersOnly_constant (by decide),
        List.forall_mem_cons.2 ⟨refersOnly_constant (by decide), List.forall_mem_cons.2
        ⟨refersOnly_includeTableName hplain,
          List.forall_mem_singleton.2 (refersOnly_where hplain hquery)⟩⟩⟩)
  | _ => exact absurd hid (by decide)

end

/-! ## Inserts and updates -/

/-- An insert before its content. -/
def insertStart (id type : String) : Element :=
  ((Element.named "insert").attr "id" id).attr "parameterType" type

/-- A generated key is stored in a property of a column. -/
theorem refersOnly_withGeneratedKey (batch : Bool) (id type : String) {rest : List Node}
    (hrest : ∀ node ∈ rest, RefersOnly (document table) scope node (IsColumnProperty table)) :
    RefersOnly (document table) scope
      (Element.toNode { Statements.withGeneratedKey table batch (insertStart id type) with
      children :=
        (Statements.withGeneratedKey table batch (insertStart id type)).children ++ rest })
      (IsColumnProperty table) := by
  have hplainInsert : RefersOnly (document table) scope (Element.toNode { insertStart id type with
      children := (insertStart id type).children ++ rest }) (IsColumnProperty table) :=
    refersOnly_plain "insert" (by decide) rfl rfl rfl hrest
  rw [Statements.withGeneratedKey]
  split
  case h_2 => exact hplainInsert
  case h_1 key column hkey hcolumn =>
    have hcolumn : IsColumnProperty table column.property :=
      ⟨column, List.mem_of_find?_eq_some hcolumn, rfl⟩
    split
    case isTrue =>
      refine refersOnly_element (show "insert" ≠ "include" by decide)
        (fun path hpath => by cases hpath)
        (fun property hproperty => ?_) hrest
      obtain rfl : column.property = property := Option.some_inj.1 hproperty
      exact hcolumn
    case isFalse =>
      split
      case isTrue => exact hplainInsert
      case isFalse =>
        refine refersOnly_plain "insert" (by decide) rfl rfl rfl
          (List.forall_mem_cons.2 ⟨?_, hrest⟩)
        refine refersOnly_element (show "selectKey" ≠ "include" by decide)
          (fun path hpath => by cases hpath)
          (fun property hproperty => ?_)
            (List.forall_mem_singleton.2 (refersOnly_constant (hplain.keyStatement key hkey)))
        obtain rfl : column.property = property := Option.some_inj.1 hproperty
        exact hcolumn

/-- **The condition over the key** names the key columns. -/
theorem refersOnly_keyPredicate {owner : Option String} (hscoped : Scoped owner scope) :
    RefersOnly (document table) scope (.text (Statements.keyPredicate table owner))
      (IsColumnProperty table) := by
  have hmem : ∀ c ∈ table.primaryKeyColumns, c ∈ table.columns := by
    intro c hc
    rw [TableModel.primaryKeyColumns, List.mem_mergeSort] at hc
    exact (List.mem_filter.1 hc).1
  have hread : parameters (Statements.keyPredicate table owner) =
      table.primaryKeyColumns.flatMap fun c => [c.propertyPath owner] := by
    have hlead : Reads ("where".toList ++ [' ']) [] := reads_inert (by decide) (by decide)
    have hand : Reads (([] ++ [' ']) ++ ("and".toList ++ [' '])) [] :=
      (reads_inert (by decide) (by decide)).append (reads_inert (by decide) (by decide))
    have hcomparisons : ∀ c ∈ table.primaryKeyColumns,
        Reads (Statements.keyComparison owner c).toList [c.propertyPath owner] := fun c hc =>
      reads_comparison owner (hplain.column c (hmem c hc))
        (hscoped.nameable_path (hplain.property c (hmem c hc)))
        (hplain.typeHandler c (hmem c hc))
    have hall := hlead.append (Reads.intercalate hand hcomparisons)
    refine Reads.parameters_eq ?_
    rw [Statements.keyPredicate, String.toList_append, String.toList_intercalate, List.map_map]
    exact hall
  refine refersOnly_text fun path hpath property hproperty => ?_
  rw [hread, List.mem_flatMap] at hpath
  obtain ⟨c, hc, hpath⟩ := hpath
  rw [List.mem_singleton.1 hpath, hscoped.propertyIn_path] at hproperty
  exact ⟨c, hmem c hc, Option.some_inj.1 hproperty⟩

/-- The variables in front of a statement: a batch statement takes a
list. -/
def parameterScope (id : FragmentId) : List String :=
  match id with
  | .batchInsert | .batchUpdate => ["list"]
  | _ => []

/-- The columns in front of the rows of a batch. -/
theorem inert_columnNames :
    Inert ("(" ++ ", ".intercalate (table.insertableColumns.map (·.escapedName)) ++
      ")").toList := by
  have hcolumns : Inert
      (", ".intercalate (table.insertableColumns.map (·.escapedName))).toList := by
    refine Inert.intercalate fun s hs => ?_
    obtain ⟨c, hc, rfl⟩ := List.mem_map.1 hs
    exact inert_escapedName (hplain.column c (List.mem_filter.1 hc).1)
  rw [String.toList_append, String.toList_append]
  exact Inert.append_cons (Inert.append_cons (show Inert [] by decide) hcolumns (by decide))
    (show Inert [] by decide)
    (by decide)

/-- The rows of a batch name properties of columns. -/
theorem refersOnly_rows : RefersOnly (document table) ["list"]
    ((((Statements.loop ",").text "(").child (Fragments.inclusion .batchSetValue)).text ")").toNode
    (IsColumnProperty table) := by
  have hrow : RefersOnly (document table) ["item", "index", "list"]
      (Fragments.inclusion .batchSetValue).toNode
      (IsColumnProperty table) :=
    refersOnly_inclusion .batchSetValue fun piece hpiece => by
      obtain rfl := Option.some_inj.1 hpiece
      exact refersOnly_batchSetValue hplain
  exact refersOnly_loop
    (List.forall_mem_cons.2 ⟨refersOnly_constant (by decide), List.forall_mem_cons.2
    ⟨hrow, List.forall_mem_singleton.2 (refersOnly_constant (by decide))⟩⟩)

/-- **Inserts and updates name properties of columns.** -/
theorem refersOnly_write {id : FragmentId}
    (hid : elementName id = "insert" ∨ elementName id = "update") {e : Element}
    (he : fragment? table id = some e) :
    RefersOnly (document table) (parameterScope id) e.toNode (IsColumnProperty table) := by
  cases id with
  | insert =>
    obtain ⟨-, he⟩ := Option.ite_none_right_eq_some.1 he
    cases he
    have hrest : ∀ node ∈ [Node.text "insert into", (Fragments.inclusion .tableName).toNode,
        (Statements.setOf .set).toNode],
        RefersOnly (document table) [] node (IsColumnProperty table) :=
      List.forall_mem_cons.2 ⟨refersOnly_constant (by decide), List.forall_mem_cons.2
        ⟨refersOnly_includeTableName hplain,
          List.forall_mem_singleton.2 (refersOnly_setOf rfl (refersOnly_set hplain))⟩⟩
    have hall := refersOnly_withGeneratedKey hplain false FragmentId.insert.name
      table.names.recordType.qualifiedName hrest
    simpa [Element.text, Element.child, insertStart, parameterScope] using hall
  | batchInsert =>
    obtain ⟨-, he⟩ := Option.ite_none_right_eq_some.1 he
    cases he
    have hrest : ∀ node ∈ [Node.text "insert into", (Fragments.inclusion .tableName).toNode,
        Node.text ("(" ++ ", ".intercalate (table.insertableColumns.map (·.escapedName)) ++ ")"),
        Node.text "values",
        ((((Statements.loop ",").text "(").child
          (Fragments.inclusion .batchSetValue)).text ")").toNode],
        RefersOnly (document table) ["list"] node (IsColumnProperty table) :=
      List.forall_mem_cons.2 ⟨refersOnly_constant (by decide), List.forall_mem_cons.2
        ⟨refersOnly_includeTableName hplain,
          List.forall_mem_cons.2 ⟨refersOnly_constant (inert_columnNames hplain),
          List.forall_mem_cons.2 ⟨refersOnly_constant (by decide),
            List.forall_mem_singleton.2 (refersOnly_rows hplain)⟩⟩⟩⟩
    have hall := refersOnly_withGeneratedKey hplain true FragmentId.batchInsert.name
      Statements.listType hrest
    simpa [Element.text, Element.child, insertStart, parameterScope] using hall
  | update =>
    obtain ⟨-, he⟩ := Option.ite_none_right_eq_some.1 he
    cases he
    exact refersOnly_plain "update" (by decide) rfl rfl rfl (List.forall_mem_cons.2
      ⟨refersOnly_constant (by decide),
        List.forall_mem_cons.2 ⟨refersOnly_includeTableName hplain, List.forall_mem_cons.2
        ⟨refersOnly_setOf rfl (refersOnly_set hplain),
          List.forall_mem_singleton.2 (refersOnly_keyPredicate hplain .row)⟩⟩⟩)
  | batchUpdate =>
    obtain ⟨-, he⟩ := Option.ite_none_right_eq_some.1 he
    cases he
    refine refersOnly_plain "update" (by decide) rfl rfl rfl
      (List.forall_mem_singleton.2 (refersOnly_loop ?_))
    exact List.forall_mem_cons.2 ⟨refersOnly_constant (by decide), List.forall_mem_cons.2
      ⟨refersOnly_includeTableName hplain,
        List.forall_mem_cons.2 ⟨refersOnly_setOf rfl (refersOnly_batchSet hplain),
        List.forall_mem_singleton.2 (refersOnly_keyPredicate hplain .item)⟩⟩⟩
  | _ => exact absurd hid (by decide)

end

end Reference

end TableMapper
