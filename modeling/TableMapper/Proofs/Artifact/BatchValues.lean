import TableMapper.Proofs.Artifact.Evaluation
import TableMapper.Proofs.Artifact.NamedProperties

/-!
# Batch inserts

The columns of a batch insert and the values of its rows are written by
different functions: the columns as one text, the values as texts and choices
in a `trim`. **For every item there is one value for each column, in the order
of the columns** (`batchInsert_aligned`), whatever properties of the item are
null: the parameter of the column, or, where the property is null, the current
time for a timestamp and the alive value for the soft-delete column
(`rowValue`).
-/

namespace TableMapper.Evaluation

open Markup (Element Node)
open MapperDocument (document fragment?)
open Reference (valueNode foldl_addValue)

/-! ## Values with commas -/

/-- Texts with a comma behind each of them but the last. -/
def commaSeparated : List String → List String
  | [] => []
  | [s] => [s]
  | s :: rest => (s ++ ",") :: commaSeparated rest

/-- Put together, the texts are separated by commas. -/
theorem join_commaSeparated (values : List String) :
    String.join (commaSeparated values) = ",".intercalate values := by
  induction values with
  | nil => simp [commaSeparated]
  | cons value values ih =>
    cases values with
    | nil => simp [commaSeparated]
    | cons next values =>
      rw [commaSeparated, String.join_cons, ih, String.intercalate_cons_cons]
      simp

/-- Without the last comma, texts with a comma behind each are separated by
commas. -/
theorem dropEnding_commas (scope : Scope) (values : List String) :
    dropEnding "," (values.map fun value => scope.piece (value ++ ",")) =
      (commaSeparated values).map scope.piece := by
  induction values with
  | nil => rfl
  | cons value values ih =>
    cases values with
    | nil =>
      show [{ scope.piece (value ++ ",") with text := withoutEnding "," (value ++ ",") }] = _
      rw [withoutEnding_append]
      rfl
    | cons next values => exact congrArg (scope.piece (value ++ ",") :: ·) ih

/-! ## The values of a row -/

/-- **The value of a column for an item**: the parameter of the column, or its
default when the property is null and the column has one. -/
def rowValue (table : TableModel) (item : Value) (c : ColumnModel) : String :=
  let parameter := c.parameter (some "item")
  if (item.property c.property).isNull then
    if table.isTimestamp c then "now()"
    else
      match table.spec.softDelete with
      | some softDelete => if c.isNamed softDelete.column then softDelete.aliveValue else parameter
      | none => parameter
  else parameter

/-- The defaults of columns. -/
theorem getD_defaultValue? (table : TableModel) (c : ColumnModel) (parameter : String) :
    (Fragments.defaultValue? table c).getD parameter =
      if table.isTimestamp c then "now()"
      else
        match table.spec.softDelete with
        | some softDelete =>
          if c.isNamed softDelete.column then softDelete.aliveValue else parameter
        | none => parameter := by
  rw [Fragments.defaultValue?, TableModel.isSoftDelete, TableSpec.isSoftDelete]
  cases table.isTimestamp c with
  | true => rfl
  | false =>
    cases table.spec.softDelete with
    | none => rfl
    | some softDelete =>
      simp only [Bool.false_eq_true, if_false, Option.any_some, Option.map_some]
      cases c.isNamed softDelete.column <;> rfl

section

variable {included : Inclusions} (table : TableModel) (scope : Scope)
  (origin : String) (item : Value)

/-- **What the value of a column comes to.** -/
theorem evaluate_valueNode (c : ColumnModel) :
    evaluate included (scope.bind "item" origin item) (valueNode table c) =
      [(scope.bind "item" origin item).piece (rowValue table item c ++ ",")] := by
  have hproperty : (scope.bind "item" origin item).value
      (c.propertyPath (some Fragments.loopVariable)) =
      item.property c.property :=
    scope.value_bind_property "item" origin c.property item
  rw [valueNode, rowValue, ← getD_defaultValue?]
  cases Fragments.defaultValue? table c with
  | none =>
    simp only [evaluate_text, Option.getD_none, ite_self]
    rfl
  | some fallback =>
    simp only [evaluate_chooseDefault, hproperty, Option.getD_some]
    cases (item.property c.property).isNull <;> rfl

/-- **What the values of an item come to**: one for each column that inserts
write. -/
theorem evaluateAll_batchSetValue :
    evaluateAll included (scope.bind "item" origin item) (Fragments.batchSetValue table).children =
      (commaSeparated (table.insertableColumns.map (rowValue table item))).map
      (scope.bind "item" origin item).piece := by
  have hvalues : evaluateAll included (scope.bind "item" origin item)
      (table.insertableColumns.map (valueNode table)) =
      (table.insertableColumns.map (rowValue table item)).map
        fun value => (scope.bind "item" origin item).piece (value ++ ",") := by
    rw [evaluateAll_eq_flatMap, List.flatMap_map, List.map_map]
    simp only [evaluate_valueNode]
    exact List.map_eq_flatMap.symm
  rw [Fragments.batchSetValue, foldl_addValue, ← dropEnding_commas, ← hvalues]
  refine (List.append_nil _).trans ?_
  exact evaluate_trim _ _ _

end

/-! ## The whole insert -/

/-- The rows of a batch come behind these pieces. -/
def batchHead (table : TableModel) : List String :=
  ["insert into", table.names.runtimeTable,
    "(" ++ ", ".intercalate (table.insertableColumns.map (·.escapedName)) ++ ")", "values"]

/-- **The row of an item of a batch.** -/
def batchRow (table : TableModel) (i : Nat) (item : Value) : List Piece :=
  ("(" :: commaSeparated (table.insertableColumns.map (rowValue table item)) ++ [")"]).map
    fun s => ⟨s, [("item", placeIn "list" i)]⟩

theorem children_batchInsert (table : TableModel) :
    (Statements.batchInsert? table).map (·.children) =
    if table.rules.batchInsert then
      some [.text "insert into", (Fragments.inclusion .tableName).toNode,
        .text ("(" ++ ", ".intercalate (table.insertableColumns.map (·.escapedName)) ++ ")"),
        .text "values",
        ((((Statements.loop ",").text "(").child
          (Fragments.inclusion .batchSetValue)).text ")").toNode]
    else none := by
  rw [Statements.batchInsert?]
  cases table.rules.batchInsert with
  | false => rfl
  | true =>
    have hkey : ∀ e : Element,
        (Statements.withGeneratedKey table true e).children = e.children := by
      intro e
      rw [Statements.withGeneratedKey]
      split
      · split <;> rfl
      · rfl
    simp [hkey]

/-- **What the insert of a batch comes to**: the columns once, and a row for
every item of the list. -/
theorem evaluateById_batchInsert (table : TableModel) (depth : Nat) (items : List Value) :
    evaluateById (document table).root (depth + 2) FragmentId.batchInsert.name
      (Scope.ofList items) =
      if table.rules.batchInsert then
        (batchHead table).map (⟨·, []⟩) ++ [⟨",", []⟩].intercalate (items.mapIdx (batchRow table))
      else [] := by
  have hname : ∀ scope,
      evaluateById (document table).root (depth + 1) FragmentId.tableName.name scope =
      [scope.piece table.names.runtimeTable] := by
    intro scope
    rw [evaluateById_document]
    simp [fragment?, Fragments.tableName, Fragments.sql]
  have hvalues : ∀ origin item,
      evaluateById (document table).root (depth + 1) FragmentId.batchSetValue.name
      ((Scope.ofList items).bind "item" origin item) =
        (commaSeparated (table.insertableColumns.map (rowValue table item))).map
          ((Scope.ofList items).bind "item" origin item).piece := by
    intro origin item
    rw [evaluateById_document]
    exact evaluateAll_batchSetValue table _ origin item
  rw [evaluateById_document, fragment?, children_batchInsert]
  cases table.rules.batchInsert with
  | false => simp
  | true =>
    have hturn : ∀ i item, evaluateAll (evaluateById (document table).root (depth + 1))
        ((Scope.ofList items).bind "item" (placeIn "list" i) item)
        [.text "(", (Fragments.inclusion .batchSetValue).toNode, .text ")"]
          = batchRow table i item := by
      intro i item
      simp only [evaluateAll_cons, evaluate_text, evaluate_inclusion, hvalues,
        evaluateAll_nil, batchRow]
      rw [List.map_append]
      rfl
    have hturns : items.mapIdx
        (fun i item => evaluateAll (evaluateById (document table).root (depth + 1))
        ((Scope.ofList items).bind "item" (placeIn "list" i) item)
        [.text "(", (Fragments.inclusion .batchSetValue).toNode, .text ")"])
          = items.mapIdx (batchRow table) := by
      simp only [hturn]
    have hloop : evaluate (evaluateById (document table).root (depth + 1)) (Scope.ofList items)
        ((((Statements.loop ",").text "(").child
          (Fragments.inclusion .batchSetValue)).text ")").toNode =
          [⟨",", []⟩].intercalate (items.mapIdx (batchRow table)) := by
      refine (evaluate_foreach _ _ _ hturns).trans ?_
      cases items with
      | nil => rfl
      | cons item items =>
        rw [if_neg (by simp)]
        exact List.append_nil _
    simp only [if_true, Option.getD_some, evaluateAll_cons, evaluate_text, evaluate_inclusion,
      hname, hloop, evaluateAll_nil, List.append_nil]
    rfl

/-- **The values of a batch insert line up with its columns.** The fragment of
the values comes to one value for each column that inserts write, separated by
commas, and the insert names these columns in the same order, in front of a
row of such values for each item. -/
theorem batchInsert_aligned (table : TableModel) :
    (∀ (included : Inclusions) (scope : Scope) (origin : String) (item : Value),
      let texts := (evaluateAll included (scope.bind "item" origin item)
        (Fragments.batchSetValue table).children).map (·.text)
      let values := table.insertableColumns.map (rowValue table item)
      texts = commaSeparated values ∧ String.join texts = ",".intercalate values) ∧
    ∀ (depth : Nat) (items : List Value),
      evaluateById (document table).root (depth + 2) FragmentId.batchInsert.name
        (Scope.ofList items) =
        if table.rules.batchInsert then
          (batchHead table).map (⟨·, []⟩) ++ [⟨",", []⟩].intercalate (items.mapIdx (batchRow table))
        else [] := by
  refine ⟨fun included scope origin item => ?_, evaluateById_batchInsert table⟩
  have htexts : (evaluateAll included (scope.bind "item" origin item)
      (Fragments.batchSetValue table).children).map (·.text) =
        commaSeparated (table.insertableColumns.map (rowValue table item)) := by
    rw [evaluateAll_batchSetValue, List.map_map]
    exact List.map_id _
  refine ⟨htexts, ?_⟩
  rw [htexts, join_commaSeparated]

end TableMapper.Evaluation
