import TableMapper.Proofs.Table.Grouping

/-!
# Primary keys

The key rows of a table are read one after another, and each marks the first
column that it names. **The marked columns are those that a key row names,
each name once, and every key row whose column is there has one**
(`isKey_primaryKeyColumns`). A key row whose column was left out marks
nothing: what is marked then is a part of the key.
-/

namespace TableMapper

/-! ## Names up to case -/

section

variable {a b c : String}

theorem Text.sameIgnoringCase_iff :
    Text.sameIgnoringCase a b = true ↔ a.toList.map Char.toLower = b.toList.map Char.toLower := by
  rw [Text.sameIgnoringCase, beq_iff_eq]

theorem Text.sameIgnoringCase_trans (hab : Text.sameIgnoringCase a b = true)
    (hbc : Text.sameIgnoringCase b c = true) : Text.sameIgnoringCase a c = true := by
  rw [Text.sameIgnoringCase_iff] at hab hbc ⊢
  exact hab.trans hbc

end

section

variable {c d : ColumnModel} {name : String}

/-- Two columns named by one name have the same name up to case. -/
theorem ColumnModel.isNamed_of_isNamed (hc : c.isNamed name = true) (hd : d.isNamed name = true) :
    c.isNamed d.actualName = true := by
  refine Text.sameIgnoringCase_trans hc ?_
  rw [Text.sameIgnoringCase_comm]
  exact hd

theorem ColumnModel.isNamed_trans (hcd : c.isNamed d.actualName = true)
    (hd : d.isNamed name = true) :
    c.isNamed name = true :=
  Text.sameIgnoringCase_trans hcd hd

theorem ColumnModel.isNamed_symm (h : c.isNamed d.actualName = true) :
    d.isNamed c.actualName = true := by
  rw [ColumnModel.isNamed, Text.sameIgnoringCase_comm]
  exact h

end

/-! ## What a key is -/

/-- The place of a column in the key: the last key row that names it says
where it stands. -/
def keyPlace? (keys : List KeyColumn) (c : ColumnModel) : Option Nat :=
  (keys.filter fun key => c.isNamed key.column).getLast?.map (·.sequence)

/-- **Some columns are the key** that the rows describe: all of it, nothing
else, and in its order. -/
structure IsKey (keys : List KeyColumn) (columns key : List ColumnModel) : Prop where
  /-- They are columns of the table. -/
  subset : key ⊆ columns
  /-- A key row names each of them, and says where it stands. -/
  place : ∀ c ∈ key, keyPlace? keys c = some c.keySequence
  /-- None is there twice. -/
  distinct : key.Pairwise fun a b => a.isNamed b.actualName = false
  /-- Every key row names one of them. -/
  complete : ∀ row ∈ keys, ∃ c ∈ key, c.isNamed row.column = true
  /-- They stand in ascending order of their places. -/
  ordered : key.Pairwise fun a b => a.keySequence ≤ b.keySequence

namespace Introspection

/-! ## Marking -/

/-- A column after the key rows that name it. -/
def marked (c : ColumnModel) (keys : List KeyColumn) : ColumnModel :=
  match keys.getLast? with
  | some key => { c with primaryKey := true, keySequence := key.sequence }
  | none => c

section

variable {c d : ColumnModel} {keys : List KeyColumn} {key : KeyColumn} {columns : List ColumnModel}

@[simp] theorem actualName_marked : (marked c keys).actualName = c.actualName := by
  rw [marked]
  split <;> rfl

@[simp] theorem isNamed_marked (name : String) : (marked c keys).isNamed name = c.isNamed name := by
  rw [ColumnModel.isNamed, actualName_marked, ColumnModel.isNamed]

/-- The last key row has the word. -/
theorem marked_concat (front : List KeyColumn) (last : KeyColumn) :
    marked c (front ++ [last]) = { c with primaryKey := true, keySequence := last.sequence } := by
  rw [marked, List.getLast?_concat]

theorem marked_marked (keys : List KeyColumn) :
    marked (marked c [key]) keys = marked c (key :: keys) := by
  rcases List.eq_nil_or_concat keys with rfl | ⟨front, last, rfl⟩
  · rfl
  · rw [List.concat_eq_append, ← List.cons_append, marked_concat, marked_concat]
    rfl

theorem primaryKey_marked (h : c.primaryKey = false) :
    (marked c keys).primaryKey = !keys.isEmpty := by
  rw [marked]
  cases hlast : keys.getLast? with
  | none =>
    rw [List.getLast?_eq_none_iff] at hlast
    rw [hlast]
    exact h
  | some key =>
    cases keys with
    | nil => simp at hlast
    | cons first rest => rfl

/-- One key row on a table with a first column. -/
theorem markKey_cons (key : KeyColumn) (c : ColumnModel) (rest : List ColumnModel) :
    markKey key (c :: rest)
      = if c.isNamed key.column then marked c [key] :: rest else c :: markKey key rest :=
  rfl

/-- **Where the key rows go**: those that name the first column mark it, the
others are left to the columns behind it. -/
theorem markKeys_cons (keys : List KeyColumn) (c : ColumnModel) (rest : List ColumnModel) :
    markKeys keys (c :: rest) =
      marked c (keys.filter fun key => c.isNamed key.column) ::
        markKeys (keys.filter fun key => !c.isNamed key.column) rest := by
  induction keys generalizing c rest with
  | nil => rfl
  | cons key keys ih =>
    rw [markKeys, List.foldl_cons, markKey_cons]
    by_cases hkey : c.isNamed key.column = true
    · rw [if_pos hkey, List.filter_cons_of_pos (by exact hkey),
        List.filter_cons_of_neg (by simpa using hkey)]
      refine (ih (marked c [key]) rest).trans ?_
      simp only [isNamed_marked, marked_marked]
    · rw [if_neg hkey, List.filter_cons_of_neg (by exact hkey),
        List.filter_cons_of_pos (by simpa using hkey)]
      exact ih c (markKey key rest)

theorem markKeys_nil (keys : List KeyColumn) : markKeys keys [] = [] := by
  induction keys with
  | nil => rfl
  | cons key keys ih => exact ih

/-- Marking leaves alone what it does not set. -/
theorem map_markKeys {α : Type} {part : ColumnModel → α}
    (hpart : ∀ c keys, part (marked c keys) = part c)
    (keys : List KeyColumn) (columns : List ColumnModel) : (markKeys keys columns).map part
      = columns.map part := by
  induction columns generalizing keys with
  | nil => rw [markKeys_nil]
  | cons c rest ih => rw [markKeys_cons, List.map_cons, List.map_cons, ih, hpart]

theorem map_actualName_markKeys (keys : List KeyColumn) (columns : List ColumnModel) :
    (markKeys keys columns).map (·.actualName) = columns.map (·.actualName) :=
  map_markKeys (fun _ _ => actualName_marked) keys columns

/-- A name is that of a column before the marking and after it. -/
theorem exists_isNamed_markKeys {name : String} :
    (∃ c ∈ markKeys keys columns, c.isNamed name = true) ↔ ∃ c ∈ columns,
    c.isNamed name = true := by
  have hnames : ∀ columns : List ColumnModel, (∃ c ∈ columns, c.isNamed name = true) ↔
      (columns.map (·.actualName)).any (Text.sameIgnoringCase · name) = true := by
    intro columns
    rw [List.any_map, List.any_eq_true]
    rfl
  rw [hnames, hnames, map_actualName_markKeys]

/-! ## The marked columns -/

/-- Key rows that do not name one column say as much about another. -/
theorem keyPlace?_filter (hcd : c.isNamed d.actualName = false) :
    keyPlace? (keys.filter fun key => !c.isNamed key.column) d = keyPlace? keys d := by
  rw [keyPlace?, keyPlace?, List.filter_filter]
  congr 2
  refine List.filter_congr fun key _ => ?_
  cases hd : d.isNamed key.column with
  | false => rfl
  | true =>
    have hc : c.isNamed key.column = false := by
      refine Bool.eq_false_iff.2 fun hc => ?_
      rw [ColumnModel.isNamed_of_isNamed hc hd] at hcd
      exact Bool.noConfusion hcd
    rw [hc]
    rfl

/-- Of a column with a place the name is that of a key row. -/
theorem exists_of_keyPlace? {place : Nat} (h : keyPlace? keys c = some place) :
    ∃ key ∈ keys, c.isNamed key.column = true := by
  obtain ⟨key, hlast, -⟩ := Option.map_eq_some_iff.1 h
  have hmem := List.mem_filter.1 (List.mem_of_getLast? hlast)
  exact ⟨key, hmem.1, hmem.2⟩

/-- What a key row marks behind a column has another name than the column. -/
theorem isNamed_eq_false_of_keyPlace? {place : Nat}
    (h : keyPlace? (keys.filter fun key => !c.isNamed key.column) d = some place) :
    c.isNamed d.actualName = false := by
  obtain ⟨key, hkey, hd⟩ := exists_of_keyPlace? h
  refine Bool.eq_false_iff.2 fun hcd => ?_
  have hc := (List.mem_filter.1 hkey).2
  rw [ColumnModel.isNamed_trans hcd hd] at hc
  exact Bool.noConfusion hc

variable (hfresh : ∀ c ∈ columns, c.primaryKey = false)
include hfresh

/-- **A marked column has the place that the key rows give it.** -/
theorem keyPlace?_of_mem_markKeys (hd : d ∈ markKeys keys columns) (hkey : d.primaryKey = true) :
    keyPlace? keys d = some d.keySequence := by
  induction columns generalizing keys with
  | nil => rw [markKeys_nil] at hd; exact absurd hd List.not_mem_nil
  | cons c rest ih =>
    obtain ⟨hc, hrest⟩ := List.forall_mem_cons.1 hfresh
    rw [markKeys_cons] at hd
    rcases List.mem_cons.1 hd with rfl | hd
    · rw [primaryKey_marked hc] at hkey
      rw [keyPlace?]
      simp only [isNamed_marked]
      cases hlast : (keys.filter fun key => c.isNamed key.column).getLast? with
      | none =>
        rw [List.getLast?_eq_none_iff] at hlast
        rw [hlast] at hkey
        exact Bool.noConfusion hkey
      | some key => rw [marked, hlast]; rfl
    · have hplace := ih hrest hd
      rw [← hplace, keyPlace?_filter (isNamed_eq_false_of_keyPlace? hplace)]

/-- No two marked columns have the same name. -/
theorem pairwise_markKeys : (markKeys keys columns).Pairwise fun a b =>
    a.primaryKey = true → b.primaryKey = true → a.isNamed b.actualName = false := by
  induction columns generalizing keys with
  | nil => rw [markKeys_nil]; exact List.Pairwise.nil
  | cons c rest ih =>
    obtain ⟨-, hrest⟩ := List.forall_mem_cons.1 hfresh
    rw [markKeys_cons]
    refine List.pairwise_cons.2 ⟨fun d hd _ hkey => ?_, ih hrest⟩
    rw [isNamed_marked]
    exact isNamed_eq_false_of_keyPlace? (keyPlace?_of_mem_markKeys hrest hd hkey)

/-- **A key row whose column is there marks one.** -/
theorem exists_marked (hkey : key ∈ keys) (hcolumn : ∃ c ∈ columns, c.isNamed key.column = true) :
    ∃ c ∈ markKeys keys columns, c.primaryKey = true ∧ c.isNamed key.column = true := by
  induction columns generalizing keys with
  | nil => exact absurd hcolumn (by simp)
  | cons c rest ih =>
    obtain ⟨hc, hrest⟩ := List.forall_mem_cons.1 hfresh
    rw [markKeys_cons]
    by_cases hnamed : c.isNamed key.column = true
    · refine ⟨_, List.mem_cons_self, ?_, (isNamed_marked _).trans hnamed⟩
      have hmem : key ∈ keys.filter fun key => c.isNamed key.column :=
        List.mem_filter.2 ⟨hkey, hnamed⟩
      rw [primaryKey_marked hc, Bool.not_eq_true', List.isEmpty_eq_false_iff]
      exact List.ne_nil_of_mem hmem
    · have hothers : ∃ c ∈ rest, c.isNamed key.column = true := by
        obtain ⟨d, hd, hdkey⟩ := hcolumn
        rcases List.mem_cons.1 hd with rfl | hd
        · exact absurd hdkey hnamed
        · exact ⟨d, hd, hdkey⟩
      have hleft : key ∈ keys.filter fun key => !c.isNamed key.column :=
        List.mem_filter.2 ⟨hkey, by simpa using hnamed⟩
      obtain ⟨d, hd, h⟩ := ih hrest hleft hothers
      exact ⟨d, List.mem_cons_of_mem _ hd, h⟩

/-- A table has key columns if a key row names one of its columns. -/
theorem any_primaryKey_markKeys : (markKeys keys columns).any (·.primaryKey) = true ↔
    ∃ key ∈ keys, ∃ c ∈ columns, c.isNamed key.column = true := by
  rw [List.any_eq_true]
  constructor
  · rintro ⟨c, hc, hkey⟩
    obtain ⟨key, hmem, hnamed⟩ := exists_of_keyPlace? (keyPlace?_of_mem_markKeys hfresh hc hkey)
    exact ⟨key, hmem, exists_isNamed_markKeys.1 ⟨c, hc, hnamed⟩⟩
  · rintro ⟨key, hmem, hcolumn⟩
    obtain ⟨c, hc, hkey, -⟩ := exists_marked hfresh hmem hcolumn
    exact ⟨c, hc, hkey⟩

end

end Introspection

/-! ## The key of a table model -/

/-- Items sorted by a number stand in ascending order of it. -/
theorem pairwise_le_mergeSort {α : Type} (place : α → Nat) (items : List α) :
    (items.mergeSort fun a b => place a ≤ place b).Pairwise fun a b => place a ≤ place b := by
  refine (List.pairwise_mergeSort (fun a b c hab hbc => ?_) (fun a b => ?_) _).imp
    fun h => by simpa using h
  · exact decide_eq_true (Nat.le_trans (of_decide_eq_true hab) (of_decide_eq_true hbc))
  · simpa using Nat.le_total _ _

namespace TableModel

variable {table : TableModel} {keys : List KeyColumn} {columns : List ColumnModel}

theorem mem_primaryKeyColumns {c : ColumnModel} :
    c ∈ table.primaryKeyColumns ↔ c ∈ table.columns ∧ c.primaryKey = true := by
  rw [primaryKeyColumns, (List.mergeSort_perm _ _).mem_iff, List.mem_filter]

theorem ordered_primaryKeyColumns (table : TableModel) :
    table.primaryKeyColumns.Pairwise fun a b => a.keySequence ≤ b.keySequence :=
  pairwise_le_mergeSort ColumnModel.keySequence _

variable (hfresh : ∀ c ∈ columns, c.primaryKey = false)
  (hcolumns : table.columns = Introspection.markKeys keys columns)
include hfresh hcolumns

/-- No key column is there twice. -/
theorem distinct_primaryKeyColumns :
    table.primaryKeyColumns.Pairwise fun a b => a.isNamed b.actualName = false := by
  have hpairs : (table.columns.filter (·.primaryKey)).Pairwise fun a b =>
    a.isNamed b.actualName = false := by
    rw [List.pairwise_filter, hcolumns]
    exact Introspection.pairwise_markKeys hfresh
  refine ((List.mergeSort_perm _ _).pairwise_iff fun {a b} hab => ?_).2 hpairs
  exact Bool.eq_false_iff.2 fun hba => Bool.eq_false_iff.1 hab (ColumnModel.isNamed_symm hba)

/-- The key rows say where a key column stands. -/
theorem keyPlace?_of_mem_primaryKeyColumns {c : ColumnModel} (hc : c ∈ table.primaryKeyColumns) :
    keyPlace? keys c = some c.keySequence := by
  obtain ⟨hmem, hkey⟩ := mem_primaryKeyColumns.1 hc
  exact Introspection.keyPlace?_of_mem_markKeys hfresh (hcolumns ▸ hmem) hkey

/-- **The key columns of a model are the key**, if every key row names a
column of the table. -/
theorem isKey_primaryKeyColumns (hall : ∀ key ∈ keys, ∃ c ∈ columns, c.isNamed key.column = true) :
    IsKey keys table.columns table.primaryKeyColumns where
  subset _ hc := (mem_primaryKeyColumns.1 hc).1
  place _ hc := keyPlace?_of_mem_primaryKeyColumns hfresh hcolumns hc
  distinct := distinct_primaryKeyColumns hfresh hcolumns
  complete row hrow := by
    obtain ⟨c, hc, hkey, hnamed⟩ := Introspection.exists_marked hfresh hrow (hall row hrow)
    exact ⟨c, mem_primaryKeyColumns.2 ⟨hcolumns ▸ hc, hkey⟩, hnamed⟩
  ordered := ordered_primaryKeyColumns table

end TableModel

end TableMapper
