import TableMapper.Proofs.Artifact.Document
import TableMapper.Proofs.Artifact.Reference

/-!
# The properties that the statements name

Under the assumption that the names of a table are plain – its properties
show whole in parameters and tests, and what is copied into SQL opens no
parameter – **a selection refers only to properties of the query condition
and to the paging fields, every other statement only to properties of
columns** (`refersOnly_select`, `refersOnly_write`). The proof goes through
the fragments one by one; a fragment is included by statements of one kind
only.
-/

namespace TableMapper.Reference

open Markup (Element Node Document)
open MapperDocument (document fragment?)

/-! ## Nodes that refer only to certain properties -/

/-- What a node refers to has a property. -/
def RefersOnly (document : Document) (scope : List String) (node : Node)
    (P : String → Prop) : Prop :=
  ∀ property, Refers document scope node property → P property

section

variable {d : Document} {scope : List String} {P : String → Prop} {e : Element}

theorem refersOnly_text {s : String} (h : ∀ path ∈ parameters s, ∀ property,
    propertyIn scope path = some property → P property) : RefersOnly d scope (.text s) P := by
  rintro property (⟨hpath, hproperty⟩ | _)
  exact h _ hpath _ hproperty

theorem refersOnly_silent {s : String} (h : parameters s = []) : RefersOnly d scope (.text s) P :=
  refersOnly_text fun _ hpath => absurd (h ▸ hpath) List.not_mem_nil

/-- An element refers to what its attributes and its children refer to. -/
theorem refersOnly_element (hname : e.name ≠ "include")
    (hattributes : ∀ path ∈ attributePaths e.attributes, ∀ property,
      propertyIn scope path = some property →
      P property)
    (hkey : ∀ property, e.attributes.lookup "keyProperty" = some property → P property)
    (hchildren : ∀ node ∈ e.children,
      RefersOnly d (variablesOf e.name e.attributes ++ scope) node P) :
    RefersOnly d scope e.toNode P := by
  intro property h
  rw [Element.toNode] at h
  generalize hn : e.name = name at h hname hchildren
  generalize e.attributes = attributes at h hattributes hkey hchildren
  cases h with
  | read hpath hproperty => exact hattributes _ hpath _ hproperty
  | key hstored => exact hkey _ hstored
  | child hnode hrefers => exact hchildren _ hnode _ hrefers
  | inclusion hid hpiece hrefers => exact absurd rfl hname

/-- An element without references of its own. -/
theorem refersOnly_plain (name : String) (hname : name ≠ "include" ∧ name ≠ "foreach")
    (he : e.name = name)
    (hattributes : attributePaths e.attributes = [])
    (hkey : e.attributes.lookup "keyProperty" = none)
    (hchildren : ∀ node ∈ e.children, RefersOnly d scope node P) :
    RefersOnly d scope e.toNode P := by
  refine refersOnly_element (he ▸ hname.1) (fun path hpath => ?_) (fun property hstored => ?_) ?_
  · rw [hattributes] at hpath
    exact absurd hpath List.not_mem_nil
  · rw [hkey] at hstored
    cases hstored
  · rwa [variablesOf, he, if_neg hname.2, List.nil_append]

/-- An element with a test. -/
theorem refersOnly_test (name : String) (hname : name ≠ "include" ∧ name ≠ "foreach")
    {test : String}
    {children : List Node}
    (htest : ∀ path ∈ compared test, ∀ property, propertyIn scope path = some property → P property)
    (hchildren : ∀ node ∈ children, RefersOnly d scope node P) :
    RefersOnly d scope (Element.toNode ⟨name, [("test", test)], children⟩) P := by
  refine refersOnly_element hname.1 (fun path hpath => ?_) (fun property hkey => ?_) ?_
  · have hpaths : attributePaths [("test", test)] = compared test := by
      simp [attributePaths, List.lookup_cons]
    exact htest path (hpaths ▸ hpath)
  · cases hkey
  · rwa [variablesOf, if_neg hname.2, List.nil_append]

end

/-! ## Plain tables -/

/-- **The names of a table are plain**: its properties and paging fields show
whole, and nothing that is copied into SQL opens a parameter. -/
structure Plain (model : TableModel) : Prop where
  property : ∀ c ∈ model.columns, Nameable c.property
  orderBy : ∀ field ∈ model.spec.orderByField, Nameable field
  offset : ∀ field ∈ model.spec.offsetField, Nameable field
  limit : ∀ field ∈ model.spec.limitField, Nameable field
  column : ∀ c ∈ model.columns, Inert c.actualName.toList
  typeHandler : ∀ c ∈ model.columns, ∀ handler ∈ c.typeHandler, Inert handler.toList
  runtimeTable : Inert model.names.runtimeTable.toList
  aliveValue : ∀ softDelete ∈ model.spec.softDelete, Inert softDelete.aliveValue.toList
  keyStatement : ∀ key ∈ model.spec.generatedKey, Inert key.resolvedStatement.toList

/-! ## Columns in SQL -/

section

variable {c : ColumnModel}

theorem inert_escapedName (h : Inert c.actualName.toList) : Inert c.escapedName.toList := by
  rw [ColumnModel.escapedName]
  split
  · have htext : (TableRef.delimited c.actualName).toList
        = [] ++ '`' :: (c.actualName.toList ++ '`' :: []) := by
      rw [TableRef.delimited, String.toList_append, String.toList_append]
      rfl
    rw [htext]
    exact Inert.append_cons (by decide) (h.append_cons (by decide) (by decide)) (by decide)
  · exact h

theorem inert_handlerClause (h : ∀ handler ∈ c.typeHandler, Inert handler.toList) :
    Inert c.handlerClause.toList ∧ c.handlerClause.toList.head?.all (· = ',') = true := by
  rw [ColumnModel.handlerClause]
  cases hhandler : c.typeHandler with
  | none => exact ⟨by decide, rfl⟩
  | some handler =>
    simp only [String.toList_append]
    exact ⟨Inert.append_cons (show Inert ",typeHandler".toList by decide)
      (h handler hhandler) (by decide), rfl⟩

/-- **The parameter of a column is its property**, behind the loop variable if
there is one. -/
theorem reads_columnParameter {owner : Option String} (hpath : Nameable (c.propertyPath owner))
    (hhandler : ∀ handler ∈ c.typeHandler, Inert handler.toList) :
    Reads (c.parameter owner).toList [c.propertyPath owner] := by
  obtain ⟨hinert, hhead⟩ := inert_handlerClause hhandler
  have hshown : ∀ d ∈ (c.propertyPath owner).toList, d ≠ ',' ∧ d ≠ '\x7d' := fun d hd =>
    ⟨fun heq => hpath d hd (by simp [heq]), fun heq => hpath d hd (by simp [heq])⟩
  have hread := reads_parameter (.inl rfl : '#' = '#' ∨ _) _ hshown hhead hinert
  rw [String.ofList_toList] at hread
  simpa [ColumnModel.parameter] using hread

/-- The parameter of an item is the loop variable. -/
theorem reads_elementParameter (hhandler : ∀ handler ∈ c.typeHandler, Inert handler.toList) :
    Reads c.elementParameter.toList ["item"] := by
  obtain ⟨hinert, hhead⟩ := inert_handlerClause hhandler
  have hread := reads_parameter (.inl rfl : '#' = '#' ∨ _) "item".toList (by decide) hhead hinert
  simpa [ColumnModel.elementParameter] using hread

/-- The comparison of a column with its parameter, or its assignment. -/
theorem reads_comparison (owner : Option String) (hname : Inert c.actualName.toList)
    (hpath : Nameable (c.propertyPath owner))
    (hhandler : ∀ handler ∈ c.typeHandler, Inert handler.toList) :
    Reads (c.escapedName ++ " = " ++ c.parameter owner).toList [c.propertyPath owner] := by
  have hequals : Reads (c.escapedName.toList ++ [' '] ++ (['='] ++ [' '])) [] :=
    (reads_inert (inert_escapedName hname) (by decide)).append (reads_inert (by decide) (by decide))
  have hread := hequals.append (reads_columnParameter hpath hhandler)
  simpa [String.toList_append] using hread

/-- A text behind one that is read. -/
theorem Reads.append_string {s t : String} {names : List String} (h : Reads s.toList names)
    (ht : Inert t.toList) :
    parameters (s ++ t) = names := by
  rw [parameters, String.toList_append, h, ← parameters, parameters_inert ht, List.append_nil]

end

/-! ## Rows and items -/

/-- A statement writes a row, whose properties it names directly, or the
items of a list, whose properties it names behind the loop variable. -/
inductive Scoped : Option String → List String → Prop
  | row : Scoped none []
  | item : Scoped (some "item") ["item", "index", "list"]

section

variable {owner : Option String} {scope : List String} (hscoped : Scoped owner scope)
include hscoped

/-- In both cases the path of a column leads to its property. -/
theorem Scoped.propertyIn_path (c : ColumnModel) :
    propertyIn scope (c.propertyPath owner) = some c.property := by
  cases hscoped with
  | row => rfl
  | item =>
    refine propertyIn_append c.property ?_
    have hdot : '.' ∈ ("item" ++ "." ++ c.property).toList := by
      rw [String.toList_append, List.mem_append]
      exact .inl (by decide)
    intro hmem
    simp only [List.mem_cons, List.not_mem_nil, or_false] at hmem
    rcases hmem with heq | heq | heq <;> rw [heq] at hdot <;> exact absurd hdot (by decide)

theorem Scoped.nameable_path {c : ColumnModel} (h : Nameable c.property) :
    Nameable (c.propertyPath owner) := by
  cases hscoped with
  | row => exact h
  | item => exact Nameable.append (by decide) h

end

/-- The property of a column of a table. -/
def IsColumnProperty (table : TableModel) (property : String) : Prop :=
  ∃ c ∈ table.columns, c.property = property

section

variable {table : TableModel} (hplain : Plain table) {owner : Option String} {scope : List String}
  (hscoped : Scoped owner scope) {c : ColumnModel} (hc : c ∈ table.columns)
    {d : Document} {P : String → Prop}

/-! ## Pieces of the fragments -/

/-- An element that counts when a path is present. -/
theorem refersOnly_present (name : String) (hname : name ≠ "include" ∧ name ≠ "foreach")
    {path text : String}
    (hpath : Nameable path)
    (hproperty : ∀ property, propertyIn scope path = some property → P property)
    (htext : RefersOnly d scope (.text text) P) :
    RefersOnly d scope (((Element.named name).attr "test" (Fragments.isPresent path)).text
      text).toNode P := by
  refine refersOnly_test name hname (fun path' hpath' => ?_) (List.forall_mem_singleton.2 htext)
  rw [compared_isPresent hpath, List.mem_singleton] at hpath'
  rw [hpath']
  exact hproperty

theorem refersOnly_chooseDefault {path value fallback : String} (hpath : Nameable path)
    (hproperty : ∀ property, propertyIn scope path = some property → P property)
    (hvalue : RefersOnly d scope (.text value) P)
    (hfallback : RefersOnly d scope (.text fallback) P) :
    RefersOnly d scope (Fragments.chooseDefault path value fallback).toNode P := by
  refine refersOnly_plain "choose" (by decide) rfl rfl rfl
    (List.forall_mem_cons.2 ⟨?_, List.forall_mem_singleton.2 ?_⟩)
  · exact refersOnly_present "when" (by decide) hpath hproperty hvalue
  · exact refersOnly_plain "otherwise" (by decide) rfl rfl rfl
      (List.forall_mem_singleton.2 hfallback)

include hplain hscoped hc

theorem refersOnly_assignment :
    RefersOnly d scope (.text (Fragments.assignment c (c.parameter owner)))
      (IsColumnProperty table) := by
  refine refersOnly_text fun path hpath property hproperty => ?_
  have hread : parameters (Fragments.assignment c (c.parameter owner)) = [c.propertyPath owner] :=
    (reads_comparison owner (hplain.column c hc) (hscoped.nameable_path (hplain.property c hc))
      (hplain.typeHandler c hc)).append_string (by decide)
  rw [hread, List.mem_singleton] at hpath
  rw [hpath, hscoped.propertyIn_path, Option.some_inj] at hproperty
  exact ⟨c, hc, hproperty⟩

end

/-! ## Fragments -/

section

variable {table : TableModel} {owner : Option String} {scope : List String}
  {d : Document} {P : String → Prop}

/-- A piece of SQL refers to what its children refer to. -/
theorem refersOnly_sql (id : FragmentId) {children : List Node}
    (h : ∀ node ∈ children, RefersOnly d scope node P) :
    RefersOnly d scope (Element.toNode { Fragments.sql id with children }) P :=
  refersOnly_plain "sql" (by decide) rfl rfl rfl h

/-- A piece of SQL with an entry for every column. -/
theorem refersOnly_entries (id : FragmentId) {entries : List Element}
    (h : ∀ e ∈ entries, RefersOnly d scope e.toNode P) :
    RefersOnly d scope (entries.foldl (·.child ·) (Fragments.sql id)).toNode P := by
  rw [Element.foldl_child]
  refine refersOnly_sql id fun node hnode => ?_
  obtain ⟨e, he, rfl⟩ := List.mem_map.1 hnode
  exact h e he

/-- The value of a column among the values of an item: with its default if it
has one. -/
def valueNode (table : TableModel) (c : ColumnModel) : Node :=
  let value := c.parameter (some Fragments.loopVariable) ++ ","
  match Fragments.defaultValue? table c with
  | some fallback =>
    (Fragments.chooseDefault (c.propertyPath (some Fragments.loopVariable)) value
      (fallback ++ ",")).toNode
  | none => .text value

theorem foldl_addValue (columns : List ColumnModel) (e : Element) :
    columns.foldl (Fragments.addValue table) e
      = { e with children := e.children ++ columns.map (valueNode table) } := by
  have hstep : ∀ e c, Fragments.addValue table e c
      = { e with children := e.children ++ [valueNode table c] } := by
    intro e c
    rw [Fragments.addValue, valueNode]
    cases Fragments.defaultValue? table c <;> rfl
  induction columns generalizing e with
  | nil => simp
  | cons c columns ih => simp [hstep, ih]

variable (hplain : Plain table)
include hplain

theorem refersOnly_tableName : RefersOnly d scope (Fragments.tableName table).toNode P :=
  refersOnly_sql .tableName
    (List.forall_mem_singleton.2 (refersOnly_silent (parameters_inert hplain.runtimeTable)))

theorem refersOnly_baseColumn : RefersOnly d scope (Fragments.baseColumn table).toNode P := by
  refine refersOnly_sql .baseColumn
    (List.forall_mem_singleton.2 (refersOnly_silent (parameters_inert ?_)))
  refine Inert.intercalate fun s hs => ?_
  obtain ⟨c, hc, rfl⟩ := List.mem_map.1 hs
  exact inert_escapedName (hplain.column c hc)

/-- The default of a column opens no parameter. -/
theorem inert_defaultValue? {c : ColumnModel} {fallback : String}
    (h : Fragments.defaultValue? table c = some fallback) : Inert fallback.toList := by
  rw [Fragments.defaultValue?] at h
  split at h
  · cases h
    decide
  · split at h
    · obtain ⟨softDelete, hsoftDelete, rfl⟩ := Option.map_eq_some_iff.1 h
      exact hplain.aliveValue softDelete hsoftDelete
    · cases h

/-- **The assignments for one row.** -/
theorem refersOnly_set : RefersOnly d [] (Fragments.set table).toNode (IsColumnProperty table) := by
  refine refersOnly_entries .set fun e he => ?_
  obtain ⟨c, hmem, rfl⟩ := List.mem_map.1 he
  have hc : c ∈ table.columns := (List.mem_filter.1 hmem).1
  have hproperty : ∀ property, propertyIn [] (c.propertyPath none) = some property →
      IsColumnProperty table property :=
    fun property h => ⟨c, hc, Option.some_inj.1 (Scoped.row.propertyIn_path c ▸ h)⟩
  rw [Fragments.setEntry]
  split
  · have hnow : Inert (Fragments.assignment c Settings.currentTime).toList := by
      have htext : (Fragments.assignment c Settings.currentTime).toList =
          c.escapedName.toList ++ ' ' :: "= now(),".toList := by
        simp [Fragments.assignment, Settings.currentTime]
      rw [htext]
      exact (inert_escapedName (hplain.column c hc)).append_cons (by decide) (by decide)
    exact refersOnly_chooseDefault (hplain.property c hc) hproperty
      (refersOnly_assignment hplain .row hc)
      (refersOnly_silent (parameters_inert hnow))
  · exact refersOnly_present "if" (by decide) (hplain.property c hc) hproperty
      (refersOnly_assignment hplain .row hc)

/-- **The assignments for one item of a batch.** -/
theorem refersOnly_batchSet :
    RefersOnly d ["item", "index", "list"] (Fragments.batchSet table).toNode
      (IsColumnProperty table) := by
  refine refersOnly_entries .batchSet fun e he => ?_
  obtain ⟨c, hmem, rfl⟩ := List.mem_map.1 he
  have hc : c ∈ table.columns := (List.mem_filter.1 hmem).1
  exact refersOnly_present "if" (by decide) (Scoped.item.nameable_path (hplain.property c hc))
    (fun property h => ⟨c, hc, Option.some_inj.1 (Scoped.item.propertyIn_path c ▸ h)⟩)
    (refersOnly_assignment hplain .item hc)

/-- The value of a column among the values of an item. -/
theorem refersOnly_valueNode {c : ColumnModel} (hc : c ∈ table.columns) :
    RefersOnly d ["item", "index", "list"] (valueNode table c) (IsColumnProperty table) := by
  have hpath : Nameable (c.propertyPath (some "item")) :=
    Scoped.item.nameable_path (hplain.property c hc)
  have hproperty : ∀ property,
      propertyIn ["item", "index", "list"] (c.propertyPath (some "item")) = some property →
      IsColumnProperty table property :=
    fun property h => ⟨c, hc, Option.some_inj.1 (Scoped.item.propertyIn_path c ▸ h)⟩
  have hvalue : RefersOnly d ["item", "index", "list"]
      (.text (c.parameter (some Fragments.loopVariable) ++ ","))
      (IsColumnProperty table) := by
    have hread : parameters (c.parameter (some Fragments.loopVariable) ++ ",")
        = [c.propertyPath (some "item")] :=
      (reads_columnParameter hpath (hplain.typeHandler c hc)).append_string (by decide)
    refine refersOnly_text fun path hmem property h => hproperty property ?_
    rw [hread, List.mem_singleton] at hmem
    rwa [hmem] at h
  rw [valueNode]
  cases hdefault : Fragments.defaultValue? table c with
  | none => exact hvalue
  | some fallback =>
    have hfallback : Inert (fallback ++ ",").toList := by
      rw [String.toList_append]
      exact (inert_defaultValue? hplain hdefault).append_cons (show Inert [] by decide) (by decide)
    exact refersOnly_chooseDefault hpath hproperty hvalue
      (refersOnly_silent (parameters_inert hfallback))

/-- **The values of one item of a batch.** -/
theorem refersOnly_batchSetValue :
    RefersOnly d ["item", "index", "list"] (Fragments.batchSetValue table).toNode
      (IsColumnProperty table) := by
  refine refersOnly_sql .batchSetValue (List.forall_mem_singleton.2 ?_)
  rw [foldl_addValue]
  refine refersOnly_plain "trim" (by decide) rfl rfl rfl fun node hnode => ?_
  obtain ⟨c, hmem, rfl⟩ := List.mem_map.1 hnode
  exact refersOnly_valueNode hplain (List.mem_filter.1 hmem).1

end

/-! ## The filter -/

/-- The fields for ordering and paging. -/
def pagingFields (spec : TableSpec) : List String :=
  spec.orderByField.toList ++ spec.offsetField.toList ++ spec.limitField.toList

/-- A property of the query condition, or a field for ordering and
paging. -/
def IsQueryProperty (table : TableModel) (property : String) : Prop :=
  (∃ f ∈ table.queryFields, f.property = property) ∨ property ∈ pagingFields table.spec

/-- The properties of the query condition are those of columns. -/
def QueryFieldsOfColumns (table : TableModel) : Prop :=
  ∀ f ∈ table.queryFields, ∃ c ∈ table.columns, ∃ multiValue, f = .ofColumn c multiValue

section

variable {table : TableModel} {d : Document} (hplain : Plain table)
include hplain

/-- The predicate of a property of the query condition. -/
theorem refersOnly_fieldPredicate {f : QueryField} {c : ColumnModel} {multiValue : Bool}
    (hf : f ∈ table.queryFields)
    (hc : c ∈ table.columns) (hcolumn : f = .ofColumn c multiValue) :
    RefersOnly d [] (Fragments.fieldPredicate f).toNode (IsQueryProperty table) := by
  have hname := inert_escapedName (hplain.column c hc)
  have hquery : ∀ property, propertyIn [] f.property = some property →
      IsQueryProperty table property :=
    fun property h => .inl ⟨f, hf, Option.some_inj.1 h⟩
  -- a plain field is compared with its own parameter, one with several values is looped over
  cases multiValue with
  | false =>
    have hread : parameters ("and " ++ c.escapedName ++ " = " ++ c.parameter none)
        = [c.property] := by
      have hand : Reads ("and".toList ++ [' ']) [] := reads_inert (by decide) (by decide)
      have hall := hand.append (reads_comparison none (hplain.column c hc) (hplain.property c hc)
        (hplain.typeHandler c hc))
      refine Reads.parameters_eq (show Reads _ [c.propertyPath none] from ?_)
      simpa [String.toList_append] using hall
    subst hcolumn
    refine refersOnly_present "if" (by decide) (hplain.property c hc) hquery
      (refersOnly_text fun path hpath => ?_)
    rw [show (QueryField.ofColumn c false).column = c from rfl, hread, List.mem_singleton] at hpath
    rw [hpath]
    exact hquery
  | true =>
    have hpath : Nameable f.property := by
      rw [hcolumn]
      exact (hplain.property c hc).append (by decide)
    have hfield : f.multiValue = true ∧ f.column = c := by
      rw [hcolumn]
      exact ⟨rfl, rfl⟩
    rw [Fragments.fieldPredicate, hfield.2, if_pos hfield.1]
    refine refersOnly_test "if" (by decide) (fun path hmem => ?_)
      (List.forall_mem_cons.2 ⟨?_, List.forall_mem_singleton.2 ?_⟩)
    · rw [compared_size hpath] at hmem
      obtain rfl : path = f.property := by simpa using hmem
      exact hquery
    · have htext : ("and " ++ c.escapedName ++ " in").toList =
          "and".toList ++ ' ' :: (c.escapedName.toList ++ ' ' :: "in".toList) := by
        simp [String.toList_append]
      refine refersOnly_silent (parameters_inert ?_)
      rw [htext]
      exact Inert.append_cons (by decide) (hname.append_cons (by decide) (by decide)) (by decide)
    · refine refersOnly_element (show "foreach" ≠ "include" by decide) (fun path hmem => ?_)
        (fun property hkey => ?_)
        (List.forall_mem_singleton.2 ?_)
      · obtain rfl : path = f.property := by simpa [attributePaths, List.lookup_cons] using hmem
        exact hquery
      · cases hkey
      · -- the items themselves are the loop variable
        refine refersOnly_text fun path hmem property hproperty => ?_
        rw [(reads_elementParameter (hplain.typeHandler c hc)).parameters_eq,
          List.mem_singleton] at hmem
        rw [hmem, propertyIn_of_mem (by simp [variablesOf, List.lookup_cons])] at hproperty
        cases hproperty

/-- **The filter** names properties of the query condition. -/
theorem refersOnly_condition (hquery : QueryFieldsOfColumns table) :
    RefersOnly d [] (Fragments.condition table).toNode (IsQueryProperty table) := by
  have hpredicates : ∀ e ∈ table.queryFields.map Fragments.fieldPredicate,
      RefersOnly d [] e.toNode (IsQueryProperty table) := by
    intro e he
    obtain ⟨f, hf, rfl⟩ := List.mem_map.1 he
    obtain ⟨c, hc, multiValue, hcolumn⟩ := hquery f hf
    exact refersOnly_fieldPredicate hplain hf hc hcolumn
  have hnodes : ∀ node ∈ (table.queryFields.map Fragments.fieldPredicate).map Element.toNode,
      RefersOnly d [] node (IsQueryProperty table) := by
    intro node hnode
    obtain ⟨e, he, rfl⟩ := List.mem_map.1 hnode
    exact hpredicates e he
  rw [Fragments.condition]
  cases halive : Fragments.alivePredicate? table with
  | none => exact refersOnly_entries .condition hpredicates
  | some predicate =>
    rw [Element.foldl_child]
    refine refersOnly_sql .condition
      (List.forall_mem_append.2 ⟨List.forall_mem_singleton.2 ?_, hnodes⟩)
    obtain ⟨softDelete, hsoftDelete, halive⟩ := Option.bind_eq_some_iff.1 halive
    obtain ⟨c, hc, hpredicate⟩ := Option.bind_eq_some_iff.1 halive
    cases hpredicate
    have htext : (c.escapedName ++ " = " ++ softDelete.aliveValue).toList =
        c.escapedName.toList ++ ' ' :: ("=".toList ++ ' ' :: softDelete.aliveValue.toList) := by
      simp [String.toList_append]
    refine refersOnly_silent (parameters_inert ?_)
    rw [htext]
    exact (inert_escapedName (hplain.column c (List.mem_of_find?_eq_some hc))).append_cons
      (Inert.append_cons (by decide) (hplain.aliveValue softDelete hsoftDelete)
        (by decide)) (by decide)

omit hplain in
/-- A parameter of its own. -/
theorem reads_field {opening : Char} (hopening : opening = '#' ∨ opening = '$') {field : String}
    (h : Nameable field) :
    Reads (opening :: '\x7b' :: field.toList ++ ['\x7d']) [field] := by
  have hread := reads_parameter hopening field.toList
    (fun c hc => ⟨fun heq => h c hc (by simp [heq]), fun heq => h c hc (by simp [heq])⟩) rfl
    (show Inert [] by decide)
  rwa [String.ofList_toList, List.append_nil] at hread

/-- **The limit of a page** names the paging fields. -/
theorem refersOnly_pageLimit {e : Element} (he : Fragments.pageLimit? table = some e) :
    RefersOnly d [] e.toNode (IsQueryProperty table) := by
  obtain ⟨-, he⟩ := Option.ite_none_right_eq_some.1 he
  revert he
  split
  next offset limit hoffset hlimit =>
    rintro ⟨⟩
    have hnameable := hplain.offset offset hoffset
    have hnameable' := hplain.limit limit hlimit
    have hpaging : ∀ path ∈ [offset, limit], ∀ property, propertyIn [] path = some property →
        IsQueryProperty table property := by
      intro path hpath property hproperty
      obtain rfl : path = property := Option.some_inj.1 hproperty
      refine .inr ?_
      simp only [pagingFields, hoffset, hlimit, List.mem_append, Option.mem_toList]
      rcases List.mem_pair.1 hpath with rfl | rfl
      · exact .inl (.inr rfl)
      · exact .inr rfl
    have hread : parameters ("limit #\x7b" ++ offset ++ "\x7d, #\x7b" ++ limit ++ "\x7d")
        = [offset, limit] := by
      have hlead : Reads ("limit".toList ++ [' ']) [] := reads_inert (by decide) (by decide)
      have hcomma : Reads (",".toList ++ [' ']) [] := reads_inert (by decide) (by decide)
      have hall := hlead.append ((reads_field (.inl rfl) hnameable).append
        (hcomma.append (reads_field (.inl rfl) hnameable')))
      refine Reads.parameters_eq ?_
      simpa [String.toList_append] using hall
    refine refersOnly_sql .pageLimit
      (List.forall_mem_singleton.2 (refersOnly_test "if" (by decide) (fun path hpath => ?_)
      (List.forall_mem_singleton.2 (refersOnly_text fun path hpath => ?_))))
    · rw [compared_and hnameable hnameable'] at hpath
      exact hpaging path hpath
    · rw [hread] at hpath
      exact hpaging path hpath
  next => exact fun he => by cases he

end

end TableMapper.Reference
