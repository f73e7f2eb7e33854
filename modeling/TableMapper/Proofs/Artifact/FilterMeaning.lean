import TableMapper.Proofs.Artifact.Evaluation
import TableMapper.Proofs.Table.Introspected

/-!
# What the filter means

The selections share one `where`, which includes the filter. Each of its
predicates but the first begins with an `and`, and which one is the first
depends on the query condition; `where` takes the leading `and` away.

It takes away one that it should keep if the predicate of the soft-delete
column begins with the word itself, as names are copied into SQL as they are
unless they are to be quoted. This is the only exception: **for every query
condition the filter comes to the conjunction of the active predicates exactly
if the predicate of the soft-delete column does not begin with `and` or `or`**
(`filterMeans_iff`).
-/

namespace TableMapper.Evaluation

open Markup (Element Node)
open MapperDocument (document fragment?)

/-! ## Predicates and conjunctions -/

/-- The list in the predicate of a property that is compared with the elements
of a list. -/
def members (scope : Scope) (f : QueryField) (items : List Value) : List Piece :=
  scope.piece "(" ::
    ([scope.piece ","].intercalate (items.mapIdx fun i item =>
      [(scope.bind "item" (placeIn f.property i) item).piece f.column.elementParameter]) ++
        [scope.piece ")"])

/-- **The predicate of a property of the query condition**, if it is active: an
equality with its parameter when it is not null, or the membership in its list
when this is not empty. -/
def predicate? (scope : Scope) (f : QueryField) : Option (List Piece) :=
  let name := f.column.escapedName
  let value := scope.value f.property
  if f.multiValue then
    if value.items.isEmpty then none
    else some (scope.piece (name ++ " in") :: members scope f value.items)
  else if value.isNull then none
  else some [scope.piece (name ++ " = " ++ f.column.parameter none)]

/-- **The active predicates**: that of the soft-delete column, and then those
of the properties in their order. -/
def predicates (table : TableModel) (scope : Scope) : List (List Piece) :=
  (Fragments.alivePredicate? table).toList.map (fun text => [scope.piece text]) ++
    table.queryFields.filterMap (predicate? scope)

/-- A predicate behind another one. -/
def joined : List Piece → List Piece
  | [] => []
  | p :: rest => { p with text := "and " ++ p.text } :: rest

/-- **The conjunction of some predicates**, as a clause. -/
def conjunction (scope : Scope) : List (List Piece) → List Piece
  | [] => []
  | first :: others => scope.piece "where" :: (first ++ others.flatMap joined)

/-- **The filter means what the query condition says**, whatever it says: the
`where` of the selections comes to the conjunction of the active predicates. -/
def FilterMeans (table : TableModel) : Prop :=
  ∀ depth scope, evaluate (evaluateById (document table).root (depth + 1)) scope
    Statements.whereCondition.toNode =
    conjunction scope (predicates table scope)

/-! ## The parts of the filter -/

section

variable {included : Inclusions} {table : TableModel} {scope : Scope} {f : QueryField}

/-- The loop over a list that is not empty. -/
theorem evaluate_members {item : Value} {items : List Value}
    (hitems : (scope.value f.property).items = item :: items) :
    evaluate included scope (.element "foreach"
      [("collection", f.property), ("item", "item"), ("open", "("),
        ("close", ")"), ("separator", ",")]
      [.text f.column.elementParameter]) = members scope f (item :: items) := by
  refine (evaluate_foreach scope _ _ rfl).trans ?_
  rw [show valueOf _ "collection" = f.property from rfl, hitems, if_neg (by simp)]
  simp only [evaluateAll_cons, evaluateAll_nil, evaluate_text, List.append_nil]
  rfl

/-- What the optional predicate of a property comes to. -/
theorem evaluate_fieldPredicate :
    evaluate included scope (Fragments.fieldPredicate f).toNode
      = ((predicate? scope f).map joined).getD [] := by
  rw [Fragments.fieldPredicate, predicate?]
  cases f.multiValue with
  | false =>
    simp only [Bool.false_eq_true, if_false]
    rw [evaluate_ifPresent]
    cases (scope.value f.property).isNull with
    | true => rfl
    | false =>
      simp only [Bool.false_eq_true, if_false, Option.map_some, Option.getD_some, joined]
      simp [Scope.piece, String.append_assoc]
  | true =>
    have htest : Fragments.isPresent f.property ++ " and " ++ f.property ++ ".size() > 0" =
        (Test.filled f.property).text := by
      rw [Fragments.isPresent, Test.text, show " != null and " = " != null" ++ " and " from rfl,
        ← String.append_assoc]
    simp only [if_true]
    rw [htest]
    refine (evaluate_if scope _ _).trans ?_
    rw [show valueOf _ "test" = (Test.filled f.property).text from rfl,
      Scope.holds_text, Test.isTrue]
    cases hitems : (scope.value f.property).items with
    | nil => rfl
    | cons item items =>
      show evaluateAll included scope [.text ("and " ++ f.column.escapedName ++ " in"), _] = _
      rw [evaluateAll_cons, evaluateAll_cons, evaluateAll_nil, evaluate_text]
      rw [List.append_nil, String.append_assoc]
      exact congrArg (scope.piece _ :: ·) (evaluate_members hitems)

/-- An active predicate has a first piece. -/
theorem exists_cons_of_predicate? {pieces : List Piece} (h : predicate? scope f = some pieces) :
    ∃ p rest, pieces = p :: rest := by
  rw [predicate?] at h
  split at h
  · obtain ⟨-, h⟩ := Option.ite_none_left_eq_some.1 h
    cases h
    exact ⟨_, _, rfl⟩
  · obtain ⟨-, h⟩ := Option.ite_none_left_eq_some.1 h
    cases h
    exact ⟨_, _, rfl⟩

theorem children_condition (table : TableModel) : (Fragments.condition table).children =
    (Fragments.alivePredicate? table).toList.map .text ++
      table.queryFields.map fun f => (Fragments.fieldPredicate f).toNode := by
  rw [Fragments.condition, Element.foldl_child, List.map_map]
  cases Fragments.alivePredicate? table <;> rfl

/-- **What the filter comes to**: the predicate of the soft-delete column, and
each other active predicate behind an `and`. -/
theorem evaluateAll_condition : evaluateAll included scope (Fragments.condition table).children =
    (Fragments.alivePredicate? table).toList.map scope.piece ++
      (table.queryFields.filterMap (predicate? scope)).flatMap joined := by
  have hfields : ∀ fields : List QueryField,
      evaluateAll included scope (fields.map fun f => (Fragments.fieldPredicate f).toNode) =
        (fields.filterMap (predicate? scope)).flatMap joined := by
    intro fields
    induction fields with
    | nil => simp
    | cons f fields ih =>
      rw [List.map_cons, evaluateAll_cons, ih, evaluate_fieldPredicate]
      cases hf : predicate? scope f <;> simp [hf]
  rw [children_condition, evaluateAll_eq_flatMap, List.flatMap_append, ← evaluateAll_eq_flatMap,
    ← evaluateAll_eq_flatMap,
    hfields]
  cases Fragments.alivePredicate? table <;> simp

/-! ## The clause -/

/-- An `and` in front is dropped. -/
theorem dropJunction_joined {p : Piece} {rest more : List Piece} :
    dropJunction (joined (p :: rest) ++ more) = p :: rest ++ more := by
  show { p with text := (behindJunction? ("and " ++ p.text)).getD ("and " ++ p.text) } ::
    (rest ++ more) = _
  rw [behindJunction?_and]
  rfl

/-- What the `where` of the selections comes to. -/
theorem evaluate_whereCondition (table : TableModel) (depth : Nat) (scope : Scope) :
    evaluate (evaluateById (document table).root (depth + 1)) scope
      Statements.whereCondition.toNode =
      clause scope "where"
        (dropJunction ((Fragments.alivePredicate? table).toList.map scope.piece ++
        (table.queryFields.filterMap (predicate? scope)).flatMap joined)) := by
  have hincluded :
      evaluateAll (evaluateById (document table).root (depth + 1)) scope
        Statements.whereCondition.children =
      evaluateById (document table).root (depth + 1) FragmentId.condition.name scope := by
    refine (evaluateAll_cons scope _ _).trans ?_
    rw [evaluateAll_nil, List.append_nil, evaluate_inclusion]
  refine (evaluate_where scope _ _).trans ?_
  rw [hincluded, evaluateById_document]
  exact congrArg (fun body => clause scope "where" (dropJunction body)) evaluateAll_condition

/-- Where the parameter has no properties no property of the query condition
is active. -/
theorem filterMap_predicate?_null (fields : List QueryField) :
    fields.filterMap (predicate? ⟨.null, []⟩) = [] := by
  refine List.filterMap_eq_nil_iff.2 fun f _ => ?_
  rw [predicate?]
  cases f.multiValue <;> rfl

/-- **The filter means what it says unless the first predicate is cut.** -/
theorem filterMeans_iff_alivePredicate? : FilterMeans table ↔
    ∀ predicate, Fragments.alivePredicate? table = some predicate →
    behindJunction? predicate = none := by
  constructor
  · intro hmeans predicate halive
    -- where no other predicate is active the one of the soft-delete column stands alone
    have hclause := (evaluate_whereCondition table 0 ⟨.null, []⟩).symm.trans (hmeans 0 ⟨.null, []⟩)
    rw [predicates, halive, filterMap_predicate?_null] at hclause
    have htext : (behindJunction? predicate).getD predicate = predicate :=
      congrArg Piece.text (List.cons.inj (List.cons.inj hclause).2).1
    cases hjunction : behindJunction? predicate with
    | none => rfl
    | some rest =>
      rw [hjunction, Option.getD_some] at htext
      exact absurd htext (ne_of_behindJunction? hjunction)
  · intro halive depth scope
    rw [evaluate_whereCondition, predicates]
    cases hpredicate : Fragments.alivePredicate? table with
    | some predicate =>
      show clause scope "where"
        ({ scope.piece predicate with text := (behindJunction? predicate).getD predicate } :: _) = _
      rw [halive predicate hpredicate]
      rfl
    | none =>
      cases hactive : table.queryFields.filterMap (predicate? scope) with
      | nil => rfl
      | cons first others =>
        obtain ⟨f, -, hf⟩ := List.mem_filterMap.1 (hactive ▸ List.mem_cons_self)
        obtain ⟨p, rest, rfl⟩ := exists_cons_of_predicate? hf
        rw [Option.toList_none, List.map_nil, List.nil_append,
          List.flatMap_cons, dropJunction_joined]
        rfl

end

/-! ## The selections -/

theorem whereCondition_mem_selectFrom (table : TableModel) (id : FragmentId) :
    Statements.whereCondition.toNode ∈ (Statements.selectFrom table id).children :=
  List.mem_append_right _ (List.mem_singleton_self _)

/-- The selections share the `where` with the filter. -/
theorem whereCondition_mem_children {table : TableModel} {id : FragmentId} {e : Element}
    (hid : id ∈ [FragmentId.list, .getByQc, .count]) (h : fragment? table id = some e) :
    Statements.whereCondition.toNode ∈ e.children := by
  simp only [List.mem_cons, List.not_mem_nil, or_false] at hid
  rcases hid with rfl | rfl | rfl
  · obtain ⟨-, h⟩ := Option.ite_none_right_eq_some.1 ((MapperDocument.list?_eq table).symm.trans h)
    cases h
    have hordered : Statements.whereCondition.toNode ∈ (MapperDocument.ordered table).children := by
      rw [MapperDocument.ordered]
      split
      · split
        · exact List.mem_append_left _ (whereCondition_mem_selectFrom table .list)
        · exact whereCondition_mem_selectFrom table .list
      · exact whereCondition_mem_selectFrom table .list
    split
    · exact List.mem_append_left _ hordered
    · exact hordered
  · obtain ⟨-, h⟩ := Option.ite_none_right_eq_some.1
      (show (if table.rules.getByQc = true then _ else none) = _ from h)
    cases h
    exact List.mem_append_left _ (whereCondition_mem_selectFrom table .getByQc)
  · obtain ⟨-, h⟩ := Option.ite_none_right_eq_some.1
      (show (if table.rules.count = true then _ else none) = _ from h)
    cases h
    exact List.mem_append_right _ (List.mem_singleton_self _)

/-- No property of a query condition stands for the soft-delete column. -/
theorem isSoftDelete_of_mem_queryFields {spec : TableSpec} {columns : List ColumnModel}
    {f : QueryField}
    (h : f ∈ spec.queryFields columns) : spec.isSoftDelete f.column = false := by
  obtain ⟨⟨c, multiValue⟩, hfilter, rfl⟩ := List.mem_map.1 h
  have hcolumn : (QueryField.ofColumn c multiValue).column = c := by
    cases multiValue <;> rfl
  rw [hcolumn]
  simpa using (List.mem_filter.1 hfilter).2

/-- **What the filter means.** The selections share one `where`. It comes to
the conjunction of the active predicates for every query condition, exactly if
the predicate of the soft-delete column does not begin with a junction. This
predicate is there exactly if the column is, and no property of the query
condition stands for this column. -/
theorem filterMeans_iff {settings : Settings} {spec : TableSpec} {ref : TableRef} {columns : List ColumnModel}
    {remarks : Option String} {table : TableModel}
    (hmodel : TableModel.ofColumns settings spec ref columns remarks = .ok table) :
    (∀ id ∈ [FragmentId.list, .getByQc, .count], ∀ e, fragment? table id = some e →
      Statements.whereCondition.toNode ∈ e.children) ∧
    (∀ predicate, Fragments.alivePredicate? table = some predicate ↔
      ∃ softDelete c, spec.softDelete = some softDelete ∧ columns.find? (·.isNamed softDelete.column) = some c ∧
        predicate = c.escapedName ++ " = " ++ softDelete.aliveValue) ∧
    (∀ f ∈ table.queryFields, spec.isSoftDelete f.column = false) ∧
    (FilterMeans table ↔
      ∀ predicate, Fragments.alivePredicate? table = some predicate → behindJunction? predicate = none) := by
  obtain ⟨-, hcolumns, hspec, -, hquery⟩ := Introspection.ofColumns_eq_ok hmodel
  refine ⟨fun id hid e he => whereCondition_mem_children hid he, fun predicate => ?_,
    fun f hf => ?_, filterMeans_iff_alivePredicate?⟩
  · show (table.spec.softDelete.bind fun softDelete =>
        (table.columns.find? (·.isNamed softDelete.column)).bind fun c =>
          some (c.escapedName ++ " = " ++ softDelete.aliveValue)) = some predicate ↔ _
    rw [hspec, hcolumns]
    simp only [Option.bind_eq_some_iff, Option.some.injEq]
    constructor
    · rintro ⟨softDelete, hsoftDelete, c, hc, rfl⟩
      exact ⟨softDelete, c, hsoftDelete, hc, rfl⟩
    · rintro ⟨softDelete, c, hsoftDelete, hc, rfl⟩
      exact ⟨softDelete, hsoftDelete, c, hc, rfl⟩
  · exact isSoftDelete_of_mem_queryFields (hquery ▸ hf)

/-! ## A column that begins like a junction -/

/-- An ordinary column. -/
def plainColumn (name property : String) : ColumnModel :=
  { actualName := name, property, javaType := .named "java.lang.String", jdbcType := "VARCHAR", nullable := true,
    primaryKey := false, keySequence := 0, largeObject := false, keyGeneration := .notGenerated,
    generatedAlways := false, typeHandler := none, properties := [], remarks :=
    none, defaultValue := none, length := 0,
    scale := 0, delimited := false }

/-- A table whose rows are marked as deleted by a column. -/
def ordersMarkedBy (name : String) : TableModel :=
  let spec : TableSpec :=
    { tableName := "orders", domainObjectName := some "Orders", softDelete := some ⟨name, "0"⟩ }
  let columns := [plainColumn name "mark", plainColumn "code" "code"]
  { table := .plain "orders", remarks := none, columns, queryFields := spec.queryFields columns,
    names := .ofDomainObject {} "Orders" "orders", rules := .ofSpec spec false, spec }

theorem ofColumns_ordersMarkedBy (name : String) :
    TableModel.ofColumns {} (ordersMarkedBy name).spec (.plain "orders")
      (ordersMarkedBy name).columns none =
      .ok (ordersMarkedBy name) :=
  rfl

/-- With an ordinary column the filter means what it says. -/
theorem filterMeans_deleted : FilterMeans (ordersMarkedBy "deleted") := by
  have halive : Fragments.alivePredicate? (ordersMarkedBy "deleted") = some "deleted = 0" := by
    decide +kernel
  refine (filterMeans_iff (ofColumns_ordersMarkedBy "deleted")).2.2.2.2 fun predicate hpredicate =>
    ?_
  cases halive.symm.trans hpredicate
  decide +kernel

/-- **A column can begin like a junction**: of the predicate of the column
`and` only the rest is left. -/
theorem not_filterMeans_and : TableModel.ofColumns {} (ordersMarkedBy "and").spec (.plain "orders")
      (ordersMarkedBy "and").columns none = .ok (ordersMarkedBy "and") ∧ ¬ FilterMeans (ordersMarkedBy "and") := by
  have halive : Fragments.alivePredicate? (ordersMarkedBy "and") = some "and = 0" := by
    decide +kernel
  have hjunction : behindJunction? "and = 0" = some "= 0" := by decide +kernel
  refine ⟨rfl, fun hmeans => ?_⟩
  exact nomatch (filterMeans_iff_alivePredicate?.1 hmeans _ halive).symm.trans hjunction

end TableMapper.Evaluation
