import TableMapper.Proofs.Ddl.KeyReading
import TableMapper.Proofs.Table.KeyOrder

/-!
# Declared keys and the models

The key of a table definition reaches the model twice. It makes its columns
not nullable, and these are found by their exact names; and it marks the key
columns, which are found by their names in any case. A part of a key that is
only the beginning of a column is looked for under a name that no such column
has.

So **the key columns of the model are the parts of the key in their order, and
none may be null, exactly if all parts are whole columns, and each is spelled
as its column is or the column is declared `NOT NULL`**
(`hasDeclaredKey_iff`).
-/

namespace TableMapper

theorem forall₂_exists_right {α β : Type} {R : α → β → Prop} {as : List α} {bs : List β}
    (h : List.Forall₂ R as bs)
    {a : α} (ha : a ∈ as) : ∃ b ∈ bs, R a b := by
  induction h with
  | nil => exact absurd ha List.not_mem_nil
  | cons hab _ ih =>
    rcases List.mem_cons.1 ha with rfl | ha
    · exact ⟨_, List.mem_cons_self, hab⟩
    · obtain ⟨b, hb, hab⟩ := ih ha
      exact ⟨b, List.mem_cons_of_mem _ hb, hab⟩

theorem forall₂_exists_left {α β : Type} {R : α → β → Prop} {as : List α} {bs : List β}
    (h : List.Forall₂ R as bs)
    {b : β} (hb : b ∈ bs) : ∃ a ∈ as, R a b :=
  forall₂_exists_right h.flip hb

theorem forall₂_filterMap {α β γ : Type} {f : α → Option γ} {R : γ → β → Prop}
    {as : List α} {bs : List β}
    (h : List.Forall₂ (fun a b => ∃ c, f a = some c ∧ R c b) as bs) :
    List.Forall₂ R (as.filterMap f) bs := by
  induction h with
  | nil => exact .nil
  | cons hab _ ih =>
    obtain ⟨c, hc, hR⟩ := hab
    rw [List.filterMap_cons_some hc]
    exact .cons hR ih

namespace Ddl

/-! ## Tables of a script as a source -/

section

variable {α : Type} {p : RawColumn → α} (hp : ∀ row nullable, p { row with nullable } = p row)
include hp

theorem map_forbidNull (name : String) (rows : List RawColumn) :
    (forbidNull name rows).map p = rows.map p := by
  induction rows with
  | nil => rfl
  | cons row rows ih =>
    rw [forbidNull]
    split
    · rw [List.map_cons, List.map_cons, hp]
    · rw [List.map_cons, List.map_cons, ih]

theorem map_foldl_forbidNull (key : List String) (rows : List RawColumn) :
    (key.foldl (fun rows name => forbidNull name rows) rows).map p = rows.map p := by
  induction key generalizing rows with
  | nil => rfl
  | cons name key ih => exact (ih _).trans (map_forbidNull hp name rows)

/-- Constraints leave alone what is not about null. -/
theorem map_foldl_apply (constraints : List TableConstraint)
    (state : List RawColumn × List String) :
    (constraints.foldl TableConstraint.apply state).1.map p = state.1.map p := by
  induction constraints generalizing state with
  | nil => rfl
  | cons constraint constraints ih =>
    refine (ih _).trans ?_
    cases constraint with
    | primaryKey columns => exact map_foldl_forbidNull hp _ _
    | other => rfl

/-- A row is that of a column, except for null. -/
theorem exists_of_mem_schema {t : TableDefinition} {row : RawColumn}
    (hrow : row ∈ t.schema.columns) :
    ∃ c ∈ t.columns, p (c.row t.ref) = p row := by
  have hmem := List.mem_map_of_mem (f := p) hrow
  rw [(Prod.mk.inj t.schema_eq).1, map_foldl_apply hp, List.map_map] at hmem
  exact List.mem_map.1 hmem

end

/-- Every row of a table refers to it. -/
theorem table_of_mem_schema {t : TableDefinition} {row : RawColumn}
    (hrow : row ∈ t.schema.columns) :
    row.table = t.ref := by
  obtain ⟨c, -, htable⟩ := exists_of_mem_schema (p := (·.table)) (fun _ _ => rfl) hrow
  rw [← htable]
  exact ColumnDefinition.table_row t.ref c

section

variable {schemas : List SchemaTable} (hdistinct : (schemas.map (·.table)).Nodup)
  {s : SchemaTable} (hs : s ∈ schemas)
include hdistinct hs

theorem findTable_eq : findTable schemas s.table = .ok s := by
  have hfind : schemas.find? (·.table == s.table) = some s :=
    find?_eq_some_of_unique hs (by simp) fun other hother htable =>
      List.inj_on_of_nodup_map hdistinct hother hs (beq_iff_eq.1 htable)
  rw [findTable, hfind]

/-- The rows of a table among those of several tables. -/
theorem rowsOf_flatMap (hown : ∀ s ∈ schemas, ∀ row ∈ s.columns, row.table = s.table) :
    Introspection.rowsOf s.table (schemas.flatMap (·.columns)) = s.columns := by
  induction schemas with
  | nil => exact absurd hs List.not_mem_nil
  | cons first rest ih =>
    obtain ⟨hfirst, hrest⟩ := List.nodup_cons.1 hdistinct
    obtain ⟨hownFirst, hownRest⟩ := List.forall_mem_cons.1 hown
    rw [List.flatMap_cons, Introspection.rowsOf, List.filter_append]
    rcases List.mem_cons.1 hs with rfl | hs
    · have hothers : (rest.flatMap (·.columns)).filter (·.table = s.table) = [] := by
        refine List.filter_eq_nil_iff.2 fun row hrow htable => ?_
        obtain ⟨other, hother, hrow⟩ := List.mem_flatMap.1 hrow
        rw [hownRest other hother row hrow, decide_eq_true_eq] at htable
        exact hfirst (List.mem_map.2 ⟨other, hother, htable⟩)
      rw [hothers, List.append_nil, List.filter_eq_self.2 fun row hrow =>
        decide_eq_true (hownFirst row hrow)]
    · have hnone : first.columns.filter (·.table = s.table) = [] := by
        refine List.filter_eq_nil_iff.2 fun row hrow htable => ?_
        rw [hownFirst row hrow, decide_eq_true_eq] at htable
        exact hfirst (List.mem_map.2 ⟨s, hs, htable.symm⟩)
      rw [hnone, List.nil_append]
      exact ih hrest hs hownRest

end

/-! ## Numbered keys -/

theorem map_column_keyColumns (names : List String) :
    (keyColumns names).map (·.column) = names := by
  refine List.ext_getElem (by simp [keyColumns]) fun i hi hi' => ?_
  simp [keyColumns]

/-- The numbers ascend, as long as they fit. -/
theorem ascending_keyColumns {names : List String} (hshort : names.length < UInt16.size) :
    (keyColumns names).Pairwise fun a b => a.sequence < b.sequence := by
  rw [List.pairwise_iff_getElem]
  intro i j hi hj hij
  simp only [keyColumns, List.length_mapIdx, List.getElem_mapIdx] at hi hj ⊢
  rw [Nat.mod_eq_of_lt (by omega), Nat.mod_eq_of_lt (by omega)]
  omega

/-- **Numbered names are the rows of a key** if they are different names. -/
theorem isKeyRows_keyColumns {names : List String} (hshort : names.length < UInt16.size)
    (hdistinct : names.Pairwise fun a b => Text.sameIgnoringCase a b = false) :
    IsKeyRows (keyColumns names) where
  columns := by
    rw [← map_column_keyColumns names, List.pairwise_map] at hdistinct
    exact hdistinct
  places := (ascending_keyColumns hshort).imp Nat.ne_of_lt

end Ddl

namespace Introspection

open Ddl

/-! ## Models of a script -/

/-- **A specification selects a table.** -/
def selects (spec : TableSpec) (ref : TableRef) : Bool :=
  admits spec.catalog ref.catalog && admits spec.schema ref.schema && spec.matchesTable ref.name

/-- **The key of a table is found**: the table has a model, and of every such
model the key columns are the parts of the key, in their order, and may not be
null. -/
structure HasDeclaredKey (found : Warned (List TableModel)) (ref : TableRef)
    (parts : List KeyPart) : Prop where
  modelled : ∃ model ∈ found.value, model.table = ref
  columns : ∀ model ∈ found.value, model.table = ref → List.Forall₂
    (fun c part => c.isNamed part.name.text = true ∧ c.nullable = false)
      model.primaryKeyColumns parts

/-- **A part of a key is seen**: it is a whole column, and spelled as this is,
or the column is declared `NOT NULL`. -/
def IsSeen (columns : List ColumnDefinition) (part : KeyPart) : Prop :=
  part.length = none ∧ ∃ c ∈ columns, Text.sameIgnoringCase c.name.text part.name.text = true ∧
    (c.name.text = part.name.text ∨ .notNull ∈ c.options)

instance (columns : List ColumnDefinition) (part : KeyPart) : Decidable (IsSeen columns part) :=
  inferInstanceAs (Decidable (_ ∧ _))

variable {settings : Settings} {spec : TableSpec} {tables : List TableDefinition}
  {t : TableDefinition}
  {parts : List KeyPart} {found : Warned (List TableModel)}

section

variable (hdistinct : (tables.map TableDefinition.ref).Nodup) (ht : t ∈ tables)
include hdistinct ht

theorem keyRows_ofSchema :
    keyRows (.ofSchema (tables.map TableDefinition.schema)) t.ref
      = keyColumns t.schema.primaryKey := by
  have hrefs : ((tables.map TableDefinition.schema).map (·.table)).Nodup := by rwa [List.map_map]
  have hkeys : (MetadataSource.ofSchema (tables.map TableDefinition.schema)).primaryKey t.ref =
      .ok (keyColumns t.schema.primaryKey) := by
    show (findTable _ t.schema.table).map _ = _
    rw [findTable_eq hrefs (List.mem_map_of_mem ht)]
    rfl
  rw [keyRows, hkeys]

/-- The rows of a selected table are those of its definition. -/
theorem exists_rows_ofSchema (hselected : selects spec t.ref = true) : ∃ rows,
    (MetadataSource.ofSchema (tables.map TableDefinition.schema)).columns spec.catalog
    spec.schema spec.matchesTable =
      .ok rows ∧ rowsOf t.ref rows = t.schema.columns := by
  refine ⟨_, rfl, ?_⟩
  refine rowsOf_flatMap (s := t.schema) ?_ ?_ ?_
  · refine List.Nodup.sublist (List.Sublist.map _ List.filter_sublist) ?_
    rwa [List.map_map]
  · exact List.mem_filter.2 ⟨List.mem_map_of_mem ht, hselected⟩
  · intro s hs row hrow
    obtain ⟨other, -, rfl⟩ := List.mem_map.1 (List.mem_filter.1 hs).1
    exact table_of_mem_schema hrow

variable (hselected : selects spec t.ref = true)
  (hignored : ∀ c ∈ t.columns, spec.hits c.name.text = false)

omit hdistinct ht in
include hignored in
/-- No row of the table is left out. -/
theorem keptRows_schema : spec.keptRows t.schema.columns = t.schema.columns := by
  refine List.filter_eq_self.2 fun row hrow => ?_
  obtain ⟨c, hc, hname⟩ := exists_of_mem_schema (p := (·.name)) (fun _ _ => rfl) hrow
  rw [← hname, ColumnDefinition.name_row, hignored c hc]
  rfl

include hselected hignored

theorem exists_columns_ofSchema
    (hfound : introspect settings spec (.ofSchema (tables.map TableDefinition.schema)) = .ok found)
    {model : TableModel} (hmodel : model ∈ found.value) (htable : model.table = t.ref) :
    ∃ renamer, model.columns = markKeys (keyColumns t.schema.primaryKey)
      (t.schema.columns.map (resolveColumn settings spec renamer)) := by
  obtain ⟨rows, hrows, hown⟩ := exists_rows_ofSchema hdistinct ht hselected
  obtain ⟨renamer, ignores, hignores, hbuilt⟩ :=
    exists_columns_of_mem_introspect hfound hrows hmodel
  refine ⟨renamer, ?_⟩
  rw [(ofColumns_eq_ok hbuilt).2.1, htable, keyRows_ofSchema hdistinct ht, keptColumns,
    TableSpec.filter_ignores hignores, hown, keptRows_schema hignored]

end

/-! ## The columns of a model -/

section

variable {model : TableModel} {renamer : Option Renamer} (h : t.HasKey parts)
  (hcolumns : model.columns = markKeys (keyColumns t.schema.primaryKey)
    (t.schema.columns.map (resolveColumn settings spec renamer)))

include h hcolumns in
/-- Names and null of the columns, definition by definition. -/
theorem map_columns_eq :
    model.columns.map (fun c => (c.actualName, c.nullable)) = t.columns.map fun d =>
    (d.name.text, (d.row t.ref).nullable && !t.schema.primaryKey.contains d.name.text) := by
  have hmarked : ∀ (c : ColumnModel) keys,
      ((marked c keys).actualName, (marked c keys).nullable) = (c.actualName, c.nullable) := by
    intro c keys
    rw [marked]
    split <;> rfl
  rw [hcolumns, map_markKeys hmarked, h.columns_schema]
  simp only [List.map_map]
  refine List.map_congr_left fun d _ => ?_
  simp only [Function.comp_apply, resolveColumn, exceptNull, ColumnDefinition.name_row]

include h hcolumns in
theorem exists_definition {c : ColumnModel} (hc : c ∈ model.columns) :
    ∃ d ∈ t.columns, d.name.text = c.actualName ∧
    c.nullable = ((d.row t.ref).nullable && !t.schema.primaryKey.contains d.name.text) := by
  have hmem := List.mem_map_of_mem (f := fun c => (c.actualName, c.nullable)) hc
  rw [map_columns_eq h hcolumns] at hmem
  obtain ⟨d, hd, heq⟩ := List.mem_map.1 hmem
  obtain ⟨hname, hnullable⟩ := Prod.mk.inj heq
  exact ⟨d, hd, hname, hnullable.symm⟩

include h hcolumns in
theorem exists_column {d : ColumnDefinition} (hd : d ∈ t.columns) :
    ∃ c ∈ model.columns, c.actualName = d.name.text := by
  have hmem := List.mem_map_of_mem (f := fun d => (d.name.text,
    (d.row t.ref).nullable && !t.schema.primaryKey.contains d.name.text)) hd
  rw [← map_columns_eq h hcolumns] at hmem
  obtain ⟨c, hc, heq⟩ := List.mem_map.1 hmem
  exact ⟨c, hc, (Prod.mk.inj heq).1⟩

/-! ## Parts that are seen -/

omit hcolumns in
include h in
/-- Whole parts are kept under the names of their columns. -/
theorem primaryKey_eq_map (hwhole : ∀ part ∈ parts, part.length = none) :
    t.schema.primaryKey = parts.map (·.name.text) := by
  have hkept := h.forall₂_primaryKey_schema
  generalize t.schema.primaryKey = names at hkept ⊢
  clear h
  induction hkept with
  | nil => rfl
  | cons hpart _ ih =>
    obtain ⟨hfirst, hrest⟩ := List.forall_mem_cons.1 hwhole
    rw [List.map_cons, hpart.whole hfirst, ih hrest]

include h hcolumns in
/-- A column that is seen may not be null. -/
theorem nullable_of_isSeen (hnames : t.schema.primaryKey = parts.map (·.name.text)) {part : KeyPart}
    (hpart : part ∈ parts) (hseen : IsSeen t.columns part) {c : ColumnModel}
    (hc : c ∈ model.columns)
    (hcname : c.isNamed part.name.text = true) : c.nullable = false := by
  obtain ⟨-, d, hd, hname, hspelled⟩ := hseen
  obtain ⟨e, he, hename, hnullable⟩ := exists_definition h hcolumns hc
  obtain rfl : e = d := by
    refine h.eq_of_name he hd ?_
    rw [hename]
    exact Text.sameIgnoringCase_trans hcname ((Text.sameIgnoringCase_comm _ _).trans hname)
  rw [hnullable]
  rcases hspelled with hexact | hnotNull
  · rw [hexact, hnames, List.contains_iff_mem.2 (List.mem_map_of_mem hpart),
      Bool.not_true, Bool.and_false]
  · rw [(ColumnDefinition.nullable_row_eq_false_iff t.ref (h.nullOption part hpart e hd hname)).2
      (.inl hnotNull), Bool.false_and]

include h hcolumns in
/-- **The key of a model, if all parts are seen.** -/
theorem forall₂_of_isSeen (hseen : ∀ part ∈ parts, IsSeen t.columns part) : List.Forall₂
    (fun c part => c.isNamed part.name.text = true ∧ c.nullable = false)
    model.primaryKeyColumns parts := by
  have hnames := primaryKey_eq_map h fun part hpart => (hseen part hpart).1
  have hshort : t.schema.primaryKey.length < UInt16.size := by
    rw [hnames, List.length_map]
    exact h.short
  have hrows : IsKeyRows (keyColumns t.schema.primaryKey) := by
    refine isKeyRows_keyColumns hshort ?_
    rw [hnames, List.pairwise_map]
    exact h.distinct
  have hfresh : ∀ c ∈ t.schema.columns.map (resolveColumn settings spec renamer),
      c.primaryKey = false ∧ c.keySequence = 0 := List.forall_mem_map.2 fun row _ => ⟨rfl, rfl⟩
  -- the rows of the key are in order already, and each finds its column
  have hsorted : (keyColumns t.schema.primaryKey).mergeSort (fun a b => a.sequence ≤ b.sequence) =
      keyColumns t.schema.primaryKey :=
    List.mergeSort_of_pairwise
      ((ascending_keyColumns hshort).imp fun hlt => decide_eq_true (Nat.le_of_lt hlt))
  rw [(hasKeyInOrder hfresh hcolumns hrows).columns, hsorted]
  have hparts : List.Forall₂ (fun key part => key.column = part.name.text ∧ part ∈ parts)
      (keyColumns t.schema.primaryKey) parts := by
    rw [← List.forall₂_map_left_iff (f := KeyColumn.column)
      (R := fun name part => name = part.name.text ∧ part ∈ parts), map_column_keyColumns, hnames,
      List.forall₂_map_left_iff]
    exact List.forall₂_same.2 fun part hpart => ⟨rfl, hpart⟩
  refine forall₂_filterMap (hparts.imp fun key part ⟨hkey, hpart⟩ => ?_)
  obtain ⟨-, d, hd, hname, -⟩ := hseen part hpart
  obtain ⟨c', hc', hcname'⟩ := exists_column h hcolumns hd
  have hsome : (model.columns.find? (·.isNamed key.column)).isSome = true := by
    refine List.find?_isSome.2 ⟨c', hc', ?_⟩
    rw [ColumnModel.isNamed, hcname', hkey]
    exact hname
  obtain ⟨c, hc⟩ := Option.isSome_iff_exists.1 hsome
  have hcname : c.isNamed part.name.text = true := by
    rw [← hkey]
    exact List.find?_some (p := (ColumnModel.isNamed · key.column)) hc
  exact ⟨c, hc, hcname,
    nullable_of_isSeen h hcolumns hnames hpart (hseen part hpart)
      (List.mem_of_find?_eq_some hc) hcname⟩

include h hcolumns in
/-- The key row that marks a key column comes from some part. -/
theorem exists_isKeptAs {c : ColumnModel} (hc : c ∈ model.primaryKeyColumns) :
    ∃ part ∈ parts, ∃ name, part.IsKeptAs name ∧ c.isNamed name = true := by
  have hfresh : ∀ c ∈ t.schema.columns.map (resolveColumn settings spec renamer),
      c.primaryKey = false :=
    List.forall_mem_map.2 fun row _ => rfl
  obtain ⟨key, hkey, hnamed⟩ :=
    exists_of_keyPlace? (TableModel.keyPlace?_of_mem_primaryKeyColumns hfresh hcolumns hc)
  have hname := List.mem_map_of_mem (f := (·.column)) hkey
  rw [map_column_keyColumns] at hname
  obtain ⟨part, hpart, hkept⟩ := forall₂_exists_left h.forall₂_primaryKey_schema hname
  exact ⟨part, hpart, key.column, hkept, hnamed⟩

section

variable (hkey : List.Forall₂ (fun c part => c.isNamed part.name.text = true ∧ c.nullable = false)
  model.primaryKeyColumns parts)

include h hcolumns hkey

/-- The parts that are the key of a model are whole columns. -/
theorem length_eq_none_of_forall₂ {part : KeyPart} (hpart : part ∈ parts) : part.length = none := by
  -- a part with a length is marked by a shorter one with a length, and so on
  induction hlength : part.name.text.length using Nat.strong_induction_on generalizing part with
  | _ n ih =>
    by_contra hpartial
    obtain ⟨c, hc, hcname, -⟩ := forall₂_exists_left hkey hpart
    obtain ⟨other, hother, name, hkept, hnamed⟩ := exists_isKeptAs h hcolumns hc
    have hsame : Text.sameIgnoringCase name part.name.text = true :=
      Text.sameIgnoringCase_trans ((Text.sameIgnoringCase_comm _ _).trans hnamed) hcname
    by_cases hotherLength : other.length = none
    · rw [hkept.whole hotherLength] at hsame
      exact hpartial (h.eq_of_part hother hpart hsame ▸ hotherLength)
    · have hshorter := hkept.beginning hotherLength
      rw [length_eq_of_sameIgnoringCase hsame, hlength] at hshorter
      exact hotherLength (ih _ hshorter hother rfl)

/-- **All parts are seen, if they are the key of a model.** -/
theorem isSeen_of_forall₂ {part : KeyPart} (hpart : part ∈ parts) : IsSeen t.columns part := by
  have hwhole : ∀ part ∈ parts, part.length = none :=
    fun part => length_eq_none_of_forall₂ h hcolumns hkey
  have hnames := primaryKey_eq_map h hwhole
  obtain ⟨c, hc, hcname, hnotNull⟩ := forall₂_exists_left hkey hpart
  obtain ⟨d, hd, hname, hnullable⟩ :=
    exists_definition h hcolumns (TableModel.mem_primaryKeyColumns.1 hc).1
  have hdname : Text.sameIgnoringCase d.name.text part.name.text = true := hname ▸ hcname
  refine ⟨hwhole part hpart, d, hd, hdname, ?_⟩
  rw [hnullable, Bool.and_eq_false_iff, Bool.not_eq_false'] at hnotNull
  have hspelled : d.name.text ∈ t.schema.primaryKey → d.name.text = part.name.text := by
    intro hmem
    rw [hnames] at hmem
    obtain ⟨other, hother, hexact⟩ := List.mem_map.1 hmem
    rw [← hexact] at hdname ⊢
    rw [h.eq_of_part hother hpart hdname]
  rcases hnotNull with hrow | hcontains
  · rcases (ColumnDefinition.nullable_row_eq_false_iff t.ref
      (h.nullOption part hpart d hd hdname)).1 hrow with
      hoption | hoption
    · exact .inr hoption
    · exact .inl (hspelled (h.mem_primaryKey_of_option hd hoption))
  · exact .inl (hspelled (List.contains_iff_mem.1 hcontains))

end

end

/-! ## The key of a script in its models -/

/-- A table of which the key is seen is not skipped. -/
theorem not_isSkipped_of_isSeen (hdistinct : (tables.map TableDefinition.ref).Nodup)
    (ht : t ∈ tables)
    (hignored : ∀ c ∈ t.columns, spec.hits c.name.text = false) (h : t.HasKey parts)
    (hseen : ∀ part ∈ parts, IsSeen t.columns part) : t.schema.columns ≠ [] ∧
      ¬ IsSkipped settings spec (.ofSchema (tables.map TableDefinition.schema)) t.ref
        t.schema.columns := by
  obtain ⟨part, hpart⟩ := List.exists_mem_of_ne_nil parts h.nonempty
  obtain ⟨-, d, hd, hname, -⟩ := hseen part hpart
  have hrow : exceptNull t.schema.primaryKey (d.row t.ref) ∈ t.schema.columns := by
    rw [h.columns_schema]
    exact List.mem_map_of_mem (List.mem_map_of_mem hd)
  refine ⟨List.ne_nil_of_mem hrow, ?_⟩
  rw [IsSkipped, keptRows_schema hignored, keyRows_ofSchema hdistinct ht]
  rintro (hnone | ⟨-, hnone⟩)
  · exact List.ne_nil_of_mem hrow hnone
  · have hkeyName : part.name.text ∈ (keyColumns t.schema.primaryKey).map (·.column) := by
      rw [map_column_keyColumns, primaryKey_eq_map h fun part hpart => (hseen part hpart).1]
      exact List.mem_map_of_mem hpart
    obtain ⟨key, hkey, hcolumn⟩ := List.mem_map.1 hkeyName
    have hother := hnone _ hrow key hkey
    rw [hcolumn, exceptNull, ColumnDefinition.name_row, hname] at hother
    exact Bool.noConfusion hother

/-- **A key is found exactly if all its parts are seen.** -/
theorem introspect_hasDeclaredKey_iff (settings : Settings) (hspec : spec.Readable)
    (hdistinct : (tables.map TableDefinition.ref).Nodup) (ht : t ∈ tables)
    (hselected : selects spec t.ref = true)
    (hignored : ∀ c ∈ t.columns, spec.hits c.name.text = false) (h : t.HasKey parts) :
    ∃ found, introspect settings spec (.ofSchema (tables.map TableDefinition.schema)) = .ok found ∧
      (HasDeclaredKey found t.ref parts ↔ ∀ part ∈ parts, IsSeen t.columns part) := by
  obtain ⟨rows, hrows, hown⟩ := exists_rows_ofSchema hdistinct ht hselected
  obtain ⟨found, hfound, haccounts, -⟩ := introspect_accounts settings hspec _ hrows
  refine ⟨found, hfound, fun hkey => ?_, fun hseen => ⟨?_, fun model hmodel htable => ?_⟩⟩
  case refine_1 =>
    obtain ⟨model, hmodel, htable⟩ := hkey.modelled
    obtain ⟨renamer, hcolumns⟩ :=
      exists_columns_ofSchema hdistinct ht hselected hignored hfound hmodel htable
    exact fun part => isSeen_of_forall₂ h hcolumns (hkey.columns model hmodel htable)
  case refine_2 =>
    rw [haccounts.modelled, hown]
    exact not_isSkipped_of_isSeen hdistinct ht hignored h hseen
  case refine_3 =>
    obtain ⟨renamer, hcolumns⟩ :=
      exists_columns_ofSchema hdistinct ht hselected hignored hfound hmodel htable
    exact forall₂_of_isSeen h hcolumns hseen

/-- **Which keys reach the models.** A clause is read part by part, whatever
the directions; and the key is found exactly if all its parts are seen. -/
theorem hasDeclaredKey_iff (settings : Settings) (hspec : spec.Readable)
    (hdistinct : (tables.map TableDefinition.ref).Nodup) (ht : t ∈ tables) (hselected : selects spec t.ref = true)
    (hignored : ∀ c ∈ t.columns, spec.hits c.name.text = false) (h : t.HasKey parts) :
    ((∀ part ∈ parts, part.IsWritten) → Reading.ReadsKey parts) ∧
    ∃ found, introspect settings spec (.ofSchema (tables.map TableDefinition.schema)) = .ok found ∧
      (HasDeclaredKey found t.ref parts ↔ ∀ part ∈ parts, IsSeen t.columns part) :=
  ⟨Reading.readsKey_of_isWritten h.nonempty,
    introspect_hasDeclaredKey_iff settings hspec hdistinct ht hselected hignored h⟩

/-- Lines of orders, numbered within an order. -/
def orderLines : TableDefinition where
  path := [⟨"order_lines", none⟩]
  columns := [⟨⟨"order_id", none⟩, .integer .bigint none false, []⟩,
    ⟨⟨"line_no", none⟩, .integer .int none false, [.notNull]⟩]
  constraints := [.primaryKey [.column ⟨"LINE_NO", some '\x60'⟩, .column ⟨"order_id", none⟩]]
  comments := []

/-- A part in upper case is seen if its column is declared `NOT NULL`. -/
theorem hasDeclaredKey_orderLines :
    tableDefinitions? "create table order_lines (order_id bigint, line_no int not null,
      primary key (`LINE_NO` desc, order_id))" = some [orderLines] ∧
    ∃ found, introspect {} (.named "order_lines") (.ofSchema [orderLines.schema]) = .ok found ∧
      HasDeclaredKey found orderLines.ref
        [{ name := ⟨"LINE_NO", some '\x60'⟩, direction := some "desc" }, { name := ⟨"order_id", none⟩ }] := by
  have hkey : orderLines.HasKey
      [{ name := ⟨"LINE_NO", some '\x60'⟩, direction := some "desc" },
        { name := ⟨"order_id", none⟩ }] := by
    exact ⟨.clause rfl (.cons .whole (.cons .whole .nil)) (by decide), by decide, by decide, by
      decide, by decide +kernel, by decide +kernel, by decide⟩
  have hspec : (TableSpec.named "order_lines").Readable :=
    TableSpec.readable_of_problems (by decide +kernel)
  obtain ⟨-, found, hfound, hiff⟩ :=
    hasDeclaredKey_iff {} hspec (by decide) (List.mem_singleton_self orderLines)
    (by decide +kernel) (fun _ _ => rfl) hkey
  exact ⟨by decide +kernel, found, hfound, hiff.2 (by decide +kernel)⟩

/-- A table with a key in upper case. -/
def upperCaseKey : TableDefinition where
  path := [⟨"t", none⟩]
  columns := [⟨⟨"id", none⟩, .integer .int none false, []⟩]
  constraints := [.primaryKey [.column ⟨"ID", none⟩]]
  comments := []

/-- A table with the beginning of a column as its key. -/
def beginningKey : TableDefinition where
  path := [⟨"t", none⟩]
  columns := [⟨⟨"name", none⟩, .sized "TEXT" none "", [.notNull]⟩]
  constraints := [.primaryKey [.other "name(10)"]]
  comments := []

/-- A key column that is spelled in another case may be null, and the
beginning of a column is lost. -/
theorem not_hasDeclaredKey :
    (tableDefinitions? "create table t (id int, primary key (ID))" = some [upperCaseKey] ∧
      ∃ found, introspect {} (.named "t") (.ofSchema [upperCaseKey.schema]) = .ok found ∧
        ¬ HasDeclaredKey found upperCaseKey.ref [{ name := ⟨"ID", none⟩ }]) ∧
    tableDefinitions? "create table t (name text not null, primary key (name(10)))"
      = some [beginningKey] ∧
      ∃ found, introspect {} (.named "t") (.ofSchema [beginningKey.schema]) = .ok found ∧
        ¬ HasDeclaredKey found beginningKey.ref
          [{ name := ⟨"name", none⟩, length := some "10" }] := by
  have hspec : (TableSpec.named "t").Readable := TableSpec.readable_of_problems (by decide +kernel)
  have hupper : upperCaseKey.HasKey [{ name := ⟨"ID", none⟩ }] :=
    ⟨.clause rfl (.cons .whole .nil) (by decide), by decide, by decide, by decide, by
      decide +kernel, by decide +kernel, by decide⟩
  have hbeginning : beginningKey.HasKey [{ name := ⟨"name", none⟩, length := some "10" }] :=
    ⟨.clause rfl (.cons (.beginning (by decide +kernel)) .nil) (by decide), by decide, by decide, by
      decide, by decide +kernel, by decide +kernel, by decide⟩
  obtain ⟨found, hfound, hiff⟩ := introspect_hasDeclaredKey_iff {} hspec (by decide)
    (List.mem_singleton_self upperCaseKey) (by decide +kernel) (fun _ _ => rfl) hupper
  obtain ⟨found', hfound', hiff'⟩ := introspect_hasDeclaredKey_iff {} hspec (by decide)
    (List.mem_singleton_self beginningKey) (by decide +kernel) (fun _ _ => rfl) hbeginning
  exact ⟨⟨by decide +kernel, found, hfound, hiff.not.2 (by decide +kernel)⟩,
    by decide +kernel, found', hfound', hiff'.not.2 (by decide +kernel)⟩

end Introspection

end TableMapper
