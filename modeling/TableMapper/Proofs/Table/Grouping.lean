import Mathlib.Data.Ordering.Basic
import TableMapper.Table.Introspection

/-!
# The rows of a table

A metadata source reports the rows of all tables in one list, and
introspection groups them. **The group of a table holds the rows of this
table, all of them, in the order in which they were reported**
(`mem_groupRows_iff`), so nothing of a table depends on the rows of another.
The groups are kept in the order of the tables, which is a linear one.
-/

namespace TableMapper

/-! ## The order of tables -/

theorem TableRef.compareOptional_eq (a b : Option String) :
    compareOptional a b = Ord.compare a b := by
  cases a <;> cases b <;> rfl

/-- Tables are compared part by part. -/
theorem TableRef.compare_eq_lex : TableRef.compare =
    compareLex (compareOn TableRef.catalog)
      (compareLex (compareOn TableRef.schema) (compareOn TableRef.name)) := by
  funext a b
  rw [TableRef.compare, compareOptional_eq, compareOptional_eq]
  rfl

instance : Std.TransCmp TableRef.compare := by
  rw [TableRef.compare_eq_lex]
  infer_instance

theorem TableRef.compare_eq_iff {a b : TableRef} : a.compare b = .eq ↔ a = b := by
  rw [TableRef.compare, compareOptional_eq, compareOptional_eq, Ordering.then_eq_eq,
    Ordering.then_eq_eq, Std.LawfulEqCmp.compare_eq_iff_eq, Std.LawfulEqCmp.compare_eq_iff_eq,
    Std.LawfulEqCmp.compare_eq_iff_eq]
  cases a
  cases b
  simp

namespace Introspection

/-! ## One row more -/

/-- The groups stand in ascending order. -/
def Ascending (groups : Groups) : Prop :=
  groups.Pairwise fun a b => a.1.compare b.1 = .lt

/-- The rows of a table. -/
def rowsOf (table : TableRef) (rows : List RawColumn) : List RawColumn :=
  rows.filter (·.table = table)

section

variable {groups : Groups} {rows : List RawColumn} {row : RawColumn} {table : TableRef}

/-- A row is added to the group of its table, or opens one. -/
theorem fst_addRow {group : TableRef × List RawColumn} (h : group ∈ addRow row groups) :
    group.1 = row.table ∨ group ∈ groups := by
  fun_induction addRow row groups with
  | case1 => exact .inl (by rw [List.mem_singleton.1 h])
  | case2 table rows rest hlt =>
    rcases List.mem_cons.1 h with rfl | h
    · exact .inl rfl
    · exact .inr h
  | case3 table rows rest heq =>
    rcases List.mem_cons.1 h with rfl | h
    · exact .inl (TableRef.compare_eq_iff.1 heq).symm
    · exact .inr (List.mem_cons_of_mem _ h)
  | case4 table rows rest hgt ih =>
    rcases List.mem_cons.1 h with rfl | h
    · exact .inr List.mem_cons_self
    · exact (ih h).imp_right (List.mem_cons_of_mem _)

/-- Adding a row keeps the order. -/
theorem Ascending.addRow (h : Ascending groups) (row : RawColumn) :
    Ascending (addRow row groups) := by
  fun_induction Introspection.addRow row groups with
  | case1 => exact List.pairwise_singleton _ _
  | case2 table rows rest hlt =>
    obtain ⟨hfirst, hrest⟩ := List.pairwise_cons.1 h
    refine List.pairwise_cons.2 ⟨fun group hgroup => ?_, h⟩
    rcases List.mem_cons.1 hgroup with rfl | hgroup
    · exact hlt
    · exact Std.TransCmp.lt_trans hlt (hfirst group hgroup)
  | case3 table rows rest heq =>
    obtain ⟨hfirst, hrest⟩ := List.pairwise_cons.1 h
    exact List.pairwise_cons.2 ⟨hfirst, hrest⟩
  | case4 table rows rest hgt ih =>
    obtain ⟨hfirst, hrest⟩ := List.pairwise_cons.1 h
    refine List.pairwise_cons.2 ⟨fun group hgroup => ?_, ih hrest⟩
    rcases fst_addRow hgroup with htable | hgroup
    · rw [htable]
      exact Std.OrientedCmp.lt_of_gt hgt
    · exact hfirst group hgroup

/-- A table that comes before all groups has none. -/
theorem lookup_of_lt (hlt : ∀ group ∈ groups, table.compare group.1 = .lt) :
    groups.lookup table = none := by
  rw [List.lookup_eq_none_iff]
  intro group hgroup
  have hne : table ≠ group.1 := by
    intro heq
    have := hlt group hgroup
    rw [TableRef.compare_eq_iff.2 heq] at this
    exact absurd this (by decide)
  simpa using hne

/-- **What a row changes**: the group of its table grows by it. -/
theorem lookup_addRow (h : Ascending groups) (row : RawColumn) (table : TableRef) :
    (addRow row groups).lookup table =
      if row.table = table then some ((groups.lookup table).getD [] ++ [row]) else
        groups.lookup table := by
  -- the row goes in front of a greater table, into its own group, or behind a smaller one
  fun_induction addRow row groups with
  | case1 =>
    by_cases hrow : row.table = table
    · simp [hrow]
    · have hne : (table == row.table) = false := by simpa using Ne.symm hrow
      simp [List.lookup_cons, hrow, hne]
  | case2 first rows rest hlt =>
    by_cases hrow : row.table = table
    · have hnone : List.lookup table ((first, rows) :: rest) = none := by
        refine lookup_of_lt fun group hgroup => ?_
        rw [← hrow]
        rcases List.mem_cons.1 hgroup with rfl | hgroup
        · exact hlt
        · exact Std.TransCmp.lt_trans hlt ((List.pairwise_cons.1 h).1 group hgroup)
      rw [if_pos hrow, hnone, List.lookup_cons, hrow]
      simp
    · have hne : (table == row.table) = false := by simpa using Ne.symm hrow
      rw [if_neg hrow, List.lookup_cons, hne]
  | case3 first rows rest heq =>
    rw [TableRef.compare_eq_iff] at heq
    by_cases hrow : row.table = table
    · have hfirst : first = table := heq.symm.trans hrow
      simp [hrow, hfirst]
    · have hne : (table == first) = false := by simpa [← heq] using Ne.symm hrow
      rw [if_neg hrow, List.lookup_cons, List.lookup_cons, hne]
  | case4 first rows rest hgt ih =>
    have hfirst : ¬ row.table = first := by
      intro heq
      rw [TableRef.compare_eq_iff.2 heq] at hgt
      exact absurd hgt (by decide)
    rw [List.lookup_cons, List.lookup_cons, ih (List.pairwise_cons.1 h).2]
    by_cases hrow : row.table = table
    · have hne : (table == first) = false := by
        rw [hrow] at hfirst
        simpa using hfirst
      simp [hrow, hne]
    · rw [if_neg hrow, if_neg hrow]

end

/-! ## All rows -/

theorem ascending_groupRows (rows : List RawColumn) : Ascending (groupRows rows) := by
  have hfold : ∀ {groups : Groups}, Ascending groups →
      Ascending (rows.foldl (fun groups row => addRow row groups) groups) := by
    induction rows with
    | nil => exact id
    | cons row rows ih => exact fun h => ih (h.addRow row)
  exact hfold List.Pairwise.nil

/-- **The group of a table holds its rows.** -/
theorem lookup_groupRows (rows : List RawColumn) (table : TableRef) :
    (groupRows rows).lookup table = if rowsOf table rows
      = [] then none else some (rowsOf table rows) := by
  -- what is in a group before goes in front of the rows that are added
  have hfold : ∀ groups : Groups, Ascending groups →
      (rows.foldl (fun groups row => addRow row groups) groups).lookup table =
        if rowsOf table rows = [] then groups.lookup table
        else some ((groups.lookup table).getD [] ++ rowsOf table rows) := by
    induction rows with
    | nil => exact fun _ _ => rfl
    | cons row rows ih =>
      intro groups h
      rw [List.foldl_cons, ih _ (h.addRow row), lookup_addRow h]
      by_cases hrow : row.table = table
      · by_cases hnone : rowsOf table rows = [] <;> simp_all [rowsOf]
      · have hsame : rowsOf table (row :: rows) = rowsOf table rows := by simp [rowsOf, hrow]
        rw [if_neg hrow, hsame]
  simpa [groupRows] using hfold [] List.Pairwise.nil

/-- In ascending groups a table has one group. -/
theorem Ascending.lookup_eq_some_iff {groups : Groups} (h : Ascending groups) {table : TableRef}
    {rows : List RawColumn} : groups.lookup table = some rows ↔ (table, rows) ∈ groups := by
  induction groups with
  | nil => simp
  | cons group groups ih =>
    obtain ⟨hfirst, hrest⟩ := List.pairwise_cons.1 h
    obtain ⟨first, rows'⟩ := group
    rw [List.mem_cons, Prod.mk.injEq]
    by_cases htable : table = first
    · subst htable
      have hnone : (table, rows) ∉ groups := by
        intro hmem
        have hlt := hfirst _ hmem
        rw [TableRef.compare_eq_iff.2 rfl] at hlt
        exact absurd hlt (by decide)
      rw [List.lookup_cons_self, Option.some_inj, eq_comm]
      exact ⟨fun heq => .inl ⟨rfl, heq⟩, fun h => h.elim (·.2) fun hmem => absurd hmem hnone⟩
    · have hne : (table == first) = false := by simpa using htable
      rw [List.lookup_cons, hne, ← ih hrest]
      exact ⟨.inr, fun h => h.resolve_left fun heq => htable heq.1⟩

/-- **Which groups there are**: one for every table that has rows, with all
rows of the table in their order. -/
theorem mem_groupRows_iff {rows group : List RawColumn} {table : TableRef} :
    (table, group) ∈ groupRows rows ↔ group ≠ [] ∧ group = rowsOf table rows := by
  rw [← (ascending_groupRows rows).lookup_eq_some_iff, lookup_groupRows]
  split
  next hnone =>
    rw [hnone]
    simp
  next hsome =>
    rw [Option.some_inj, eq_comm]
    exact ⟨fun heq => ⟨heq ▸ hsome, heq⟩, fun h => h.2⟩

end Introspection

end TableMapper
