import TableMapper.Proofs.Artifact.BatchValues
import TableMapper.Proofs.Artifact.FilterMeaning

/-!
# What updates write for a row

An update of one row and a batch update take their assignments from two
pieces, and these are built by two loops over the same columns. Both leave a
column alone whose property is null; but the piece for one row gives a
modification timestamp the current time instead, and the piece for an item of
a batch has no such branch.

**The two write the same values for a row exactly if no modification timestamp
is null in it** (`updates_agree_iff`). With a null timestamp the batch update
leaves the old time where it was (`not_writesAlike_order`).
-/

namespace TableMapper.Evaluation

open Markup (Element Node)
open MapperDocument (document fragment?)

/-! ## Assignments -/

/-- Where a value that is written comes from. -/
inductive Source
  | property
  /-- The current time of the database. -/
  | clock
deriving DecidableEq, Repr

/-- **What an update does to a column**: it gives it a value. -/
structure Assignment where
  column : ColumnModel
  source : Source

/-- The assignment as SQL, with the property behind a variable if there is
one. -/
def Assignment.text (owner : Option String) (a : Assignment) : String :=
  a.column.escapedName ++ " = " ++
    match a.source with
    | .property => a.column.parameter owner
    | .clock => "now()"

/-- What `set` does to a column. -/
def setAssignment? (table : TableModel) (record : Value) (c : ColumnModel) : Option Assignment :=
  if (record.property c.property).isNull then
    if table.isModifiedTimestamp c then some ⟨c, .clock⟩ else none
  else some ⟨c, .property⟩

/-- What `batchSet` does to a column. -/
def batchAssignment? (item : Value) (c : ColumnModel) : Option Assignment :=
  if (item.property c.property).isNull then none else some ⟨c, .property⟩

/-- **The assignments of the update of one row.** -/
def setAssignments (table : TableModel) (record : Value) : List Assignment :=
  table.insertableColumns.filterMap (setAssignment? table record)

/-- **The assignments of a batch update** for one item. -/
def batchAssignments (table : TableModel) (item : Value) : List Assignment :=
  table.insertableColumns.filterMap (batchAssignment? item)

/-! ## The two pieces -/

section

variable {included : Inclusions} (table : TableModel) (record : Value)

/-- The pieces of some assignments, each with a comma. -/
def written (scope : Scope) (owner : Option String) (assignments : List Assignment) : List Piece :=
  assignments.map fun a => scope.piece (a.text owner ++ ",")

/-- Elements that come to at most one assignment each. -/
theorem evaluateAll_assignments (scope : Scope) (owner : Option String)
    {entry : ColumnModel → Element}
    {assignment? : ColumnModel → Option Assignment}
    (hentry : ∀ c, evaluate included scope (entry c).toNode = written scope owner
      (assignment? c).toList)
    (id : FragmentId) (columns : List ColumnModel) :
    evaluateAll included scope ((columns.map entry).foldl (·.child ·) (Fragments.sql id)).children =
      written scope owner (columns.filterMap assignment?) := by
  rw [Element.foldl_child]
  show evaluateAll included scope ([] ++ (columns.map entry).map Element.toNode) = _
  rw [List.nil_append, List.map_map]
  induction columns with
  | nil => simp [written]
  | cons c columns ih =>
    rw [List.map_cons, evaluateAll_cons, ih, Function.comp_apply, hentry, List.filterMap_cons]
    cases assignment? c <;> simp [written]

theorem evaluate_setEntry (c : ColumnModel) :
    evaluate included ⟨record, []⟩ (Fragments.setEntry table c).toNode =
      written ⟨record, []⟩ none (setAssignment? table record c).toList := by
  rw [Fragments.setEntry, setAssignment?]
  cases table.isModifiedTimestamp c with
  | true =>
    simp only [if_true]
    rw [evaluate_chooseDefault]
    show [Scope.piece _ (if (record.property c.property).isNull then _ else _)] = _
    cases (record.property c.property).isNull <;> rfl
  | false =>
    simp only [Bool.false_eq_true, if_false]
    rw [evaluate_ifPresent]
    show (if (record.property c.property).isNull then _ else _) = _
    cases (record.property c.property).isNull <;> rfl

theorem evaluate_batchSetEntry (scope : Scope) (origin : String) (c : ColumnModel) :
    evaluate included (scope.bind "item" origin record) (Fragments.batchSetEntry c).toNode =
      written (scope.bind "item" origin record) (some "item")
        (batchAssignment? record c).toList := by
  have hproperty : (scope.bind "item" origin record).value
      (c.propertyPath (some Fragments.loopVariable)) =
      record.property c.property :=
    scope.value_bind_property "item" origin c.property record
  rw [Fragments.batchSetEntry, batchAssignment?, evaluate_ifPresent, hproperty]
  cases (record.property c.property).isNull <;> rfl

/-- **What `set` comes to for a record.** -/
theorem evaluateById_set (depth : Nat) :
    evaluateById (document table).root (depth + 1) FragmentId.set.name ⟨record, []⟩ =
      written ⟨record, []⟩ none (setAssignments table record) := by
  rw [evaluateById_document]
  exact evaluateAll_assignments _ none (evaluate_setEntry table record) .set table.insertableColumns

/-- **What `batchSet` comes to for an item.** -/
theorem evaluateById_batchSet (depth : Nat) (scope : Scope) (origin : String) :
    evaluateById (document table).root (depth + 1) FragmentId.batchSet.name
      (scope.bind "item" origin record) =
      written (scope.bind "item" origin record) (some "item") (batchAssignments table record) := by
  rw [evaluateById_document]
  exact evaluateAll_assignments _ _ (evaluate_batchSetEntry record scope origin) .batchSet
    table.insertableColumns

end

/-! ## The two statements -/

/-- **The update of a row**, as SQL: without assignments there is no `set`. -/
def updateOf (table : TableModel) (owner : Option String) (assignments : List Assignment) :
    List String :=
  ["update", table.names.runtimeTable] ++
    (if assignments.isEmpty then [] else "set" :: commaSeparated
      (assignments.map (·.text owner))) ++
    [Statements.keyPredicate table owner]

section

variable {included : Inclusions} (table : TableModel)

theorem evaluate_set (scope : Scope) (attributes : List (String × String)) (children : List Node) :
    evaluate included scope (.element "set" attributes children) =
      clause scope "set" (dropEnding "," (evaluateAll included scope children)) := by
  simp [evaluate]

/-- The assignments as a clause. -/
theorem clause_written (scope : Scope) (owner : Option String) (assignments : List Assignment) :
    clause scope "set" (dropEnding "," (written scope owner assignments)) =
      (if assignments.isEmpty then []
        else "set" :: commaSeparated (assignments.map (·.text owner))).map scope.piece := by
  have hcommas := dropEnding_commas scope (assignments.map (·.text owner))
  rw [List.map_map] at hcommas
  rw [written]
  refine (congrArg (clause scope "set") hcommas).trans ?_
  match assignments with
  | [] => rfl
  | [_] => rfl
  | _ :: _ :: _ => rfl

/-- What an update of a row comes to, whatever its piece of assignments is. -/
theorem evaluateAll_updateOf (depth : Nat) (scope : Scope) (owner : Option String) {id : FragmentId}
    {assignments : List Assignment}
    (hpiece : evaluateById (document table).root (depth + 1) id.name scope
        = written scope owner assignments) :
    evaluateAll (evaluateById (document table).root (depth + 1)) scope
        [.text "update", (Fragments.inclusion .tableName).toNode, (Statements.setOf id).toNode,
          .text (Statements.keyPredicate table owner)] =
      (updateOf table owner assignments).map scope.piece := by
  have hname : evaluateById (document table).root (depth + 1) FragmentId.tableName.name scope =
      [scope.piece table.names.runtimeTable] := by
    rw [evaluateById_document]
    simp [fragment?, Fragments.tableName, Fragments.sql]
  have hset : evaluate (evaluateById (document table).root (depth + 1)) scope
      (Statements.setOf id).toNode =
      (if assignments.isEmpty then []
        else "set" :: commaSeparated (assignments.map (·.text owner))).map scope.piece := by
    rw [← clause_written, ← hpiece]
    refine (evaluate_set scope _ _).trans ?_
    show clause scope "set"
        (dropEnding "," (evaluateAll _ scope [(Fragments.inclusion id).toNode])) = _
    rw [evaluateAll_cons, evaluateAll_nil, List.append_nil, evaluate_inclusion]
  simp only [evaluateAll_cons, evaluateAll_nil, evaluate_text, evaluate_inclusion, hname, hset]
  rw [updateOf, List.map_append, List.map_append]
  simp

/-- **What the update of a record comes to.** -/
theorem evaluateById_update (depth : Nat) (record : Value) :
    evaluateById (document table).root (depth + 2) FragmentId.update.name ⟨record, []⟩ =
      if table.rules.update then (updateOf table none (setAssignments table record)).map
        (⟨·, []⟩) else [] := by
  have hpiece := evaluateAll_updateOf table depth ⟨record, []⟩ none
    (evaluateById_set table record depth)
  rw [evaluateById_document, fragment?, Statements.update?]
  cases table.rules.update with
  | false => simp
  | true => exact hpiece

/-- **What the update of a list comes to**: the update of each item, with a
semicolon between two of them. -/
theorem evaluateById_batchUpdate (depth : Nat) (items : List Value) :
    evaluateById (document table).root (depth + 2) FragmentId.batchUpdate.name
      (Scope.ofList items) =
      if table.rules.batchUpdate then
        [⟨";", []⟩].intercalate (items.mapIdx fun i item =>
          (updateOf table (some "item") (batchAssignments table item)).map
            (⟨·, [("item", placeIn "list" i)]⟩))
      else [] := by
  have hturn : ∀ (i : Nat) (item : Value),
      evaluateAll (evaluateById (document table).root (depth + 1))
      ((Scope.ofList items).bind "item" (placeIn "list" i) item)
      [.text "update", (Fragments.inclusion .tableName).toNode, (Statements.setOf .batchSet).toNode,
        .text (Statements.keyPredicate table (some "item"))] =
      (updateOf table (some "item") (batchAssignments table item)).map
        (⟨·, [("item", placeIn "list" i)]⟩) :=
    fun i item => evaluateAll_updateOf table depth _ (some "item")
      (evaluateById_batchSet table item depth _ _)
  have hturns : items.mapIdx
      (fun i item => evaluateAll (evaluateById (document table).root (depth + 1))
      ((Scope.ofList items).bind "item" (placeIn "list" i) item)
      [.text "update", (Fragments.inclusion .tableName).toNode, (Statements.setOf .batchSet).toNode,
        .text (Statements.keyPredicate table (some "item"))]) =
      items.mapIdx fun i item =>
        (updateOf table (some "item") (batchAssignments table item)).map
          (⟨·, [("item", placeIn "list" i)]⟩) := by
    simp only [hturn]
  rw [evaluateById_document, fragment?, Statements.batchUpdate?]
  cases table.rules.batchUpdate with
  | false => simp
  | true =>
    refine (evaluateAll_cons _ _ _).trans ?_
    rw [evaluateAll_nil, List.append_nil]
    refine (evaluate_foreach _ _ _ hturns).trans ?_
    cases items with
    | nil => rfl
    | cons item items =>
      rw [if_neg (by simp)]
      exact List.append_nil _

end

/-! ## The same values -/

/-- **An update of a record and the batch update of it write the same**: both
pieces come to the same assignments, column by column in the order of the
columns, up to the variable in front of the properties, and a modification
timestamp that is null becomes the current time. -/
def WritesAlike (table : TableModel) (record : Value) : Prop :=
  ∃ assignments : List Assignment, (assignments.map (·.column)).Sublist table.insertableColumns ∧
    (∀ c ∈ table.insertableColumns, table.isModifiedTimestamp c = true →
      (record.property c.property).isNull = true →
      ⟨c, .clock⟩ ∈ assignments) ∧
    ∀ (depth : Nat) (scope : Scope) (origin : String),
      (evaluateById (document table).root (depth + 1) FragmentId.set.name
        ⟨record, []⟩).map (·.text) =
          assignments.map (·.text none ++ ",") ∧
        (evaluateById (document table).root (depth + 1) FragmentId.batchSet.name
          (scope.bind "item" origin record)).map (·.text)
            = assignments.map (·.text (some "item") ++ ",")

section

variable (table : TableModel) (record : Value)

theorem map_text_written (scope : Scope) (owner : Option String) (assignments : List Assignment) :
    (written scope owner assignments).map (·.text) = assignments.map (·.text owner ++ ",") := by
  rw [written, List.map_map]
  rfl

/-- The assignments of a batch update are in the order of the columns. -/
theorem sublist_batchAssignments :
    ((batchAssignments table record).map (·.column)).Sublist table.insertableColumns := by
  have hcolumns : (batchAssignments table record).map (·.column) =
      table.insertableColumns.filter fun c => !(record.property c.property).isNull := by
    rw [batchAssignments, List.map_filterMap, ← List.filterMap_eq_filter]
    refine List.filterMap_congr fun c _ => ?_
    rw [batchAssignment?]
    cases hnull : (record.property c.property).isNull <;> simp [Option.guard, hnull]
  rw [hcolumns]
  exact List.filter_sublist

/-- The assignments that both make are those of properties. -/
theorem batchAssignments_eq_filter :
    batchAssignments table record
      = (setAssignments table record).filter (·.source = .property) := by
  rw [batchAssignments, setAssignments, List.filter_filterMap]
  refine List.filterMap_congr fun c _ => ?_
  rw [batchAssignment?, setAssignment?]
  cases (record.property c.property).isNull <;> cases table.isModifiedTimestamp c <;> rfl

/-- The current time is written for a modification timestamp that is null. -/
theorem clock_mem_setAssignments {c : ColumnModel} : ⟨c, .clock⟩ ∈ setAssignments table record ↔
    c ∈ table.insertableColumns ∧ table.isModifiedTimestamp c = true ∧
    (record.property c.property).isNull = true := by
  rw [setAssignments, List.mem_filterMap]
  constructor
  · rintro ⟨c', hc', hassignment⟩
    rw [setAssignment?] at hassignment
    split at hassignment
    · next hnull =>
      obtain ⟨hmodified, hassignment⟩ := Option.ite_none_right_eq_some.1 hassignment
      cases hassignment
      exact ⟨hc', hmodified, hnull⟩
    · cases hassignment
  · rintro ⟨hc, hmodified, hnull⟩
    exact ⟨c, hc, by rw [setAssignment?, if_pos hnull, if_pos hmodified]⟩

/-- **The two make the same assignments exactly if no modification timestamp
is null**; otherwise the batch update makes fewer. -/
theorem length_batchAssignments_eq_iff :
    (batchAssignments table record).length = (setAssignments table record).length ↔
    ∀ c ∈ table.insertableColumns, table.isModifiedTimestamp c = true →
    (record.property c.property).isNull = false := by
  rw [batchAssignments_eq_filter, List.length_filter_eq_length_iff]
  constructor
  · intro hproperty c hc hmodified
    rw [← Bool.not_eq_true]
    intro hnull
    have hclock := hproperty _ ((clock_mem_setAssignments table record).2 ⟨hc, hmodified, hnull⟩)
    exact Source.noConfusion (of_decide_eq_true hclock)
  · rintro hfilled ⟨c, source⟩ hassignment
    cases source with
    | property => rfl
    | clock =>
      obtain ⟨hc, hmodified, hnull⟩ := (clock_mem_setAssignments table record).1 hassignment
      exact absurd hnull (by rw [hfilled c hc hmodified]; exact Bool.false_ne_true)

/-- **What an update and a batch update write for a row.** The statements come
to updates with the assignments of their pieces, and the pieces come to the
same assignments exactly if no modification timestamp is null in the record. -/
theorem updates_agree_iff :
    (∀ depth, evaluateById (document table).root (depth + 2) FragmentId.update.name ⟨record, []⟩ =
      if table.rules.update then (updateOf table none (setAssignments table record)).map (⟨·, []⟩) else []) ∧
    (∀ depth, evaluateById (document table).root (depth + 2) FragmentId.batchUpdate.name (Scope.ofList [record]) =
      if table.rules.batchUpdate then
        (updateOf table (some "item") (batchAssignments table record)).map (⟨·, [("item", placeIn "list" 0)]⟩)
      else []) ∧
    (WritesAlike table record ↔
      ∀ c ∈ table.insertableColumns, table.isModifiedTimestamp c = true →
        (record.property c.property).isNull = false) := by
  refine ⟨fun depth => evaluateById_update table depth record,
    fun depth => ?_, fun ⟨assignments, _, _, hpieces⟩ => ?_, fun hfilled => ?_⟩
  case refine_1 =>
    rw [evaluateById_batchUpdate]
    simp
  case refine_2 =>
    -- the texts of the pieces tell how many assignments there are
    obtain ⟨hset, hbatch⟩ := hpieces 0 (Scope.ofList [record]) (placeIn "list" 0)
    rw [evaluateById_set, map_text_written] at hset
    rw [evaluateById_batchSet, map_text_written] at hbatch
    have hlength := congrArg List.length hset
    have hlength' := congrArg List.length hbatch
    rw [List.length_map, List.length_map] at hlength hlength'
    exact (length_batchAssignments_eq_iff table record).1 (hlength'.trans hlength.symm)
  case refine_3 =>
    have hlength := (length_batchAssignments_eq_iff table record).2 hfilled
    have hsame : batchAssignments table record = setAssignments table record := by
      rw [batchAssignments_eq_filter] at hlength ⊢
      exact List.filter_eq_self.2 (List.length_filter_eq_length_iff.1 hlength)
    refine ⟨batchAssignments table record, sublist_batchAssignments table record,
      fun c hc hmodified hnull => ?_, fun depth scope origin => ⟨?_, ?_⟩⟩
    · exact absurd hnull (by rw [hfilled c hc hmodified]; exact Bool.false_ne_true)
    · rw [evaluateById_set, map_text_written, hsame]
    · rw [evaluateById_batchSet, map_text_written]

end

/-! ## A row without a timestamp -/

/-- A table with a key, a code and a modification timestamp. -/
def stampedOrders : TableModel :=
  let spec : TableSpec :=
    { tableName := "orders", domainObjectName := some "Orders", modifiedColumn := some "gmt_modified" }
  let columns :=
    [{ plainColumn "id" "id" with primaryKey := true, keySequence := 1 }, plainColumn "code" "code",
    plainColumn "gmt_modified" "gmtModified"]
  { table := .plain "orders", remarks := none, columns, queryFields := spec.queryFields columns,
    names := .ofDomainObject {} "Orders" "orders", rules := .ofSpec spec true, spec }

/-- An order that says nothing about its time. -/
def order : Value :=
  .bean fun property => if property = "gmtModified" then .null else .single

/-- **A batch update does not touch the time**: where the update of an order
sets it to the current time, the batch update of the same order leaves the old
one. -/
theorem not_writesAlike_order :
    TableModel.ofColumns {} stampedOrders.spec (.plain "orders") stampedOrders.columns none = .ok stampedOrders ∧
      stampedOrders.primaryKeyColumns ≠ [] ∧
      (evaluateById (document stampedOrders).root 1 FragmentId.set.name ⟨order, []⟩).map (·.text) =
        ["id = #{id},", "code = #{code},", "gmt_modified = now(),"] ∧
      (evaluateById (document stampedOrders).root 1 FragmentId.batchSet.name
        ((Scope.ofList [order]).bind "item" (placeIn "list" 0) order)).map (·.text) =
          ["id = #{item.id},", "code = #{item.code},"] ∧
      ¬ WritesAlike stampedOrders order := by
  have hset : (evaluateById (document stampedOrders).root 1 FragmentId.set.name
      ⟨order, []⟩).map (·.text) =
      ["id = #\x7bid\x7d,", "code = #\x7bcode\x7d,", "gmt_modified = now(),"] := by
    rw [evaluateById_set, map_text_written]
    decide +kernel
  have hbatch : (evaluateById (document stampedOrders).root 1 FragmentId.batchSet.name
      ((Scope.ofList [order]).bind "item" (placeIn "list" 0) order)).map (·.text) =
        ["id = #\x7bitem.id\x7d,", "code = #\x7bitem.code\x7d,"] := by
    rw [evaluateById_batchSet, map_text_written]
    decide +kernel
  refine ⟨rfl, ?_, hset, hbatch, fun ⟨assignments, _, _, hpieces⟩ => ?_⟩
  · show List.mergeSort [_] _ ≠ []
    rw [List.mergeSort_singleton]
    exact List.cons_ne_nil _ _
  · -- three assignments against two
    obtain ⟨hset', hbatch'⟩ := hpieces 0 (Scope.ofList [order]) (placeIn "list" 0)
    have hthree := congrArg List.length (hset.symm.trans hset')
    have htwo := congrArg List.length (hbatch.symm.trans hbatch')
    rw [List.length_map] at hthree htwo
    exact absurd (hthree.trans htwo.symm) (by decide)

end TableMapper.Evaluation
