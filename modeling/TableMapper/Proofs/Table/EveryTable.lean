import TableMapper.Proofs.Settings.NamePatterns
import TableMapper.Proofs.Table.Accounting

/-!
# Every table

Settings without tables stand for all tables of the schema: the one
specification that is run selects them by the pattern `%`. Of a selected
table nothing is lost, as it ends in a model or in a warning that names it.
But not every name fits the pattern. Where the name itself begins with a
`%`, the pattern takes this `%` for the same character and not for any run
of characters, and is used up with it.

So **a table is reached exactly if its name does not begin with a `%` that
another character follows** (`reachesTable_iff`). A table with such a name is
left out, and neither a model nor a warning tells of it
(`not_reachesTable_archive`).
-/

namespace TableMapper

/-! ## The names that fit any run -/

namespace Like

/-- A name that begins with a literal `%`, and goes on behind it. -/
def LeadsOn (name : List Char) : Prop :=
  ∃ c rest, name = '%' :: c :: rest

/-- Behind a last wildcard every name is found. -/
theorem search_nil (name : List Char) : search [] name = true := by
  induction name with
  | nil =>
    rw [search]
    rfl
  | cons c name ih =>
    rw [search]
    exact ih

/-- **What fits the pattern `%`.** -/
theorem fits_any_iff {name : List Char} : fits ['%'] name = true ↔ ¬ LeadsOn name := by
  cases name with
  | nil => exact iff_of_true rfl nofun
  | cons c name =>
    by_cases hc : c = '%'
    · subst hc
      cases name with
      | nil => exact iff_of_true rfl nofun
      | cons d name => exact iff_of_false nofun (not_not_intro ⟨d, name, rfl⟩)
    · refine iff_of_true ?_ fun ⟨d, rest, heq⟩ => hc (List.cons.inj heq).1
      have hne : ('%' == c) = false := by simpa using Ne.symm hc
      rw [fits, advance, hne]
      exact search_nil (c :: name)

/-- The case of letters makes no difference to a `%`. -/
theorem leadsOn_map_toLower {name : List Char} :
    LeadsOn (name.map Char.toLower) ↔ LeadsOn name := by
  constructor
  · rintro ⟨c, rest, h⟩
    obtain ⟨first, name, rfl, hfirst, h⟩ := List.map_eq_cons_iff.1 h
    obtain ⟨second, name, rfl, -, -⟩ := List.map_eq_cons_iff.1 h
    exact ⟨second, name, by rw [(toLower_eq_iff (by decide)).1 hfirst]⟩
  · rintro ⟨c, rest, rfl⟩
    exact ⟨c.toLower, rest.map Char.toLower, rfl⟩

end Like

/-- **The names that the specification of all tables selects.** -/
theorem TableSpec.matchesTable_any_iff {name : String} :
    (TableSpec.named "%").matchesTable name = true ↔ ¬ Like.LeadsOn name.toList := by
  rw [← Like.leadsOn_map_toLower, ← Like.fits_any_iff]
  exact Iff.rfl

namespace Introspection

variable {settings : Settings} {spec : TableSpec} {source : MetadataSource} {table : TableRef}
  {rows : List RawColumn}
  {groups : Groups} {found : Warned (List TableModel)}

/-! ## Selected tables -/

/-- What a group comes to is part of what all of them come to. -/
theorem exists_buildTable_of_mem (h : buildTables settings spec source groups = .ok found)
    {group : TableRef × List RawColumn} (hgroup : group ∈ groups) :
    ∃ built, buildTable settings spec group.1 source group.2 = .ok built ∧
      built.value.toList ⊆ found.value ∧ built.warnings ⊆ found.warnings := by
  induction groups generalizing found with
  | nil => exact absurd hgroup List.not_mem_nil
  | cons first rest ih =>
    obtain ⟨built, hbuilt, h⟩ := Except.exists_of_bind_eq_ok h
    obtain ⟨others, hothers, h⟩ := Except.exists_of_bind_eq_ok h
    cases h
    rcases List.mem_cons.1 hgroup with rfl | hgroup
    · exact ⟨built, hbuilt, List.subset_append_left _ _, List.subset_append_left _ _⟩
    · obtain ⟨built', hbuilt', hvalue, hwarnings⟩ := ih hothers hgroup
      exact ⟨built', hbuilt', List.subset_append_of_subset_right _ hvalue,
        List.subset_append_of_subset_right _ hwarnings⟩

/-- Warnings about several tables name these tables only. -/
theorem tables_subset_of_buildTables
    (h : buildTables settings spec source groups = .ok found) {w : Warning}
    (hw : w ∈ found.warnings) : w.tables ⊆ groups.map (·.1) := by
  induction groups generalizing found with
  | nil =>
    cases h
    exact absurd hw List.not_mem_nil
  | cons first rest ih =>
    obtain ⟨built, hbuilt, h⟩ := Except.exists_of_bind_eq_ok h
    obtain ⟨others, hothers, h⟩ := Except.exists_of_bind_eq_ok h
    cases h
    rcases List.mem_append.1 hw with hw | hw
    · have hnamed : w.tables = [first.1] := by
        cases fate_of_buildTable hbuilt with
        | skipped _ _ _ hnamed => exact hnamed w hw
        | modelled _ _ _ _ _ hnamed => exact hnamed w hw
      rw [hnamed]
      exact List.cons_subset_cons _ (List.nil_subset _)
    · exact List.subset_cons_of_subset _ (ih hothers hw)

/-- **A table of which something is told**: it has a model, or a warning names
it. -/
def IsTold (found : Warned (List TableModel)) (table : TableRef) : Prop :=
  (∃ model ∈ found.value, model.table = table) ∨ ∃ w ∈ found.warnings, table ∈ w.tables

/-- **A table is built**: what its rows come to is part of what is found. -/
def IsBuilt (settings : Settings) (spec : TableSpec) (source : MetadataSource)
    (rows : List RawColumn)
    (found : Warned (List TableModel)) (table : TableRef) : Prop :=
  ∃ built, buildTable settings spec table source (rowsOf table rows) = .ok built ∧
    built.value.toList ⊆ found.value ∧ built.warnings ⊆ found.warnings

/-- A table that is built is told of. -/
theorem IsBuilt.isTold (h : IsBuilt settings spec source rows found table) :
    IsTold found table := by
  obtain ⟨built, hbuilt, hvalue, hwarnings⟩ := h
  cases fate_of_buildTable hbuilt with
  | skipped _ _ htold hnamed =>
    obtain ⟨w, hw, -⟩ := List.mem_filterMap.1 (htold ▸ List.mem_singleton_self table)
    exact .inr ⟨w, hwarnings hw, hnamed w hw ▸ List.mem_singleton_self table⟩
  | modelled _ hmodel htable =>
    rw [hmodel] at hvalue
    exact .inl ⟨_, hvalue (List.mem_singleton_self _), htable⟩

section

variable (h : introspect settings spec source = .ok found)
  (hrows : source.columns spec.catalog spec.schema spec.matchesTable = .ok rows)
include h hrows

/-- **A table that rows are reported of is built from them.** -/
theorem isBuilt_of_introspect (hne : rowsOf table rows ≠ []) :
    IsBuilt settings spec source rows found table := by
  obtain ⟨built, warnings, hbuilt, rfl, -⟩ := introspect_cases h hrows
  obtain ⟨one, hone, hvalue, hwarnings⟩ :=
    exists_buildTable_of_mem hbuilt (mem_groupRows_iff.2 ⟨hne, rfl⟩)
  exact ⟨one, hone, hvalue, List.subset_append_of_subset_right _ hwarnings⟩

/-- Nothing is told of other tables. -/
theorem not_isTold_of_introspect (hnone : rowsOf table rows = []) : ¬ IsTold found table := by
  have hmem : table ∉ (groupRows rows).map (·.1) := by
    intro hmem
    obtain ⟨⟨_, group⟩, hgroup, rfl⟩ := List.mem_map.1 hmem
    obtain ⟨hne, rfl⟩ := mem_groupRows_iff.1 hgroup
    exact hne hnone
  obtain ⟨built, warnings, hbuilt, rfl, hwarnings⟩ := introspect_cases h hrows
  rintro (⟨model, hmodel, rfl⟩ | ⟨w, hw, htable⟩)
  · obtain ⟨group, hgroup, htable, -⟩ := (covers_of_buildTables hbuilt).columns model hmodel
    exact hmem (List.mem_map.2 ⟨group, hgroup, htable.symm⟩)
  · rcases List.mem_append.1 hw with hw | hw
    · exact hmem ((hwarnings w hw).2 htable)
    · exact hmem (tables_subset_of_buildTables hbuilt hw htable)

end

theorem introspectAll_singleton :
    introspectAll settings source [spec] = introspect settings spec source := by
  rw [introspectAll]
  cases introspect settings spec source with
  | error fault => rfl
  | ok found =>
    refine congrArg Except.ok ?_
    show (⟨found.warnings ++ [], found.value ++ []⟩ : Warned (List TableModel)) = found
    rw [List.append_nil, List.append_nil]

end Introspection

/-! ## Settings without tables -/

open Introspection

/-- **A table is reached**: it is built from its rows under one of the
specifications that are run, and told of. -/
structure ReachesTable (settings : Settings) (source : MetadataSource) (rows : List RawColumn)
    (found : Warned (List TableModel)) (table : TableRef) : Prop where
  built : ∃ spec ∈ settings.effectiveSpecs, IsBuilt settings spec source rows found table
  told : IsTold found table

/-- The rows of a table are all kept or all left out with its name. -/
theorem Introspection.rowsOf_filter (accepts : String → Bool)
    (rows : List RawColumn) (table : TableRef) :
    rowsOf table (rows.filter fun row => accepts row.table.name) =
      if accepts table.name then rowsOf table rows else [] := by
  rw [rowsOf, List.filter_filter]
  split
  next haccepts =>
    refine List.filter_congr fun row _ => ?_
    by_cases htable : row.table = table
    · rw [htable, haccepts, Bool.and_true]
    · rw [decide_eq_false htable, Bool.false_and]
  next haccepts =>
    refine List.filter_eq_nil_iff.2 fun row _ hrow => haccepts ?_
    obtain ⟨htable, hname⟩ := (Bool.and_eq_true _ _).mp hrow
    rw [← of_decide_eq_true htable]
    exact hname

/-- **Which tables are reached when none is configured**: those whose names
do not begin with a `%` that goes on. -/
theorem reachesTable_iff (settings : Settings) (hnone : settings.tables = []) (source : MetadataSource)
    {rows : List RawColumn}
    (hsource : ∀ accepts, source.columns none none accepts = .ok (rows.filter fun row => accepts row.table.name)) :
    ∃ found, introspectAll settings source settings.effectiveSpecs = .ok found ∧
      ∀ row ∈ rows, ReachesTable settings source rows found row.table ↔ ¬ Like.LeadsOn row.table.name.toList := by
  have hspecs : settings.effectiveSpecs = [TableSpec.named "%"] := by
    rw [Settings.effectiveSpecs, hnone]
    rfl
  have hspec : (TableSpec.named "%").problems = [] := by decide
  obtain ⟨found, hfound⟩ := (TableSpec.readable_of_problems hspec).exists_introspect settings source
  refine ⟨found, ?_, fun row hrow => ?_⟩
  · rw [hspecs, introspectAll_singleton]
    exact hfound
  -- the rows of a table pass the filter together, so a selected table keeps all of them
  have hrows := hsource (TableSpec.named "%").matchesTable
  have hown := rowsOf_filter (TableSpec.named "%").matchesTable rows row.table
  rw [← TableSpec.matchesTable_any_iff]
  constructor
  · intro h
    by_contra hname
    rw [if_neg hname] at hown
    exact not_isTold_of_introspect hfound hrows hown h.told
  · intro hname
    rw [if_pos hname] at hown
    have hne : rowsOf row.table rows ≠ [] :=
      List.ne_nil_of_mem (List.mem_filter.2 ⟨hrow, decide_eq_true rfl⟩)
    have hbuilt := isBuilt_of_introspect hfound hrows (hown ▸ hne)
    rw [IsBuilt, hown] at hbuilt
    exact ⟨⟨_, hspecs ▸ List.mem_singleton_self _, hbuilt⟩, IsBuilt.isTold hbuilt⟩

/-! ## An archive -/

/-- A source of some rows, of tables without key, that are selected by
name. -/
def selectingSource (rows : List RawColumn) : MetadataSource :=
  { keylessSource
    rows with columns := fun _ _ accepts => .ok (rows.filter fun row => accepts row.table.name) }

/-- Tables with a `%` in their names. -/
def archiveRows : List RawColumn :=
  [rowOfType "%archive" "id" (-5), rowOfType "100%_sure" "id" (-5), rowOfType "%" "id" (-5)]

/-- A `%` behind other characters or alone makes no difference, one in front
of others does. -/
theorem reachesTable_archive : ∃ found,
    introspectAll {} (selectingSource archiveRows) ({} : Settings).effectiveSpecs = .ok found ∧
      ReachesTable {} (selectingSource archiveRows) archiveRows found (.plain "100%_sure") ∧
      ReachesTable {} (selectingSource archiveRows) archiveRows found (.plain "%") ∧
      ¬ ReachesTable {} (selectingSource archiveRows) archiveRows found (.plain "%archive") := by
  obtain ⟨found, hfound, hreaches⟩ :=
    reachesTable_iff {} rfl (selectingSource archiveRows) fun _ => rfl
  simp only [archiveRows, List.forall_mem_cons] at hreaches
  obtain ⟨harchive, hsure, hsign, -⟩ := hreaches
  refine ⟨found, hfound, hsure.2 ?_, hsign.2 ?_, fun h => harchive.1 h ?_⟩
  all_goals simp [Like.LeadsOn, rowOfType, TableRef.plain]

/-- **A table disappears**: of an archive beside the orders there is neither a
model nor a warning. -/
theorem not_reachesTable_archive : ∃ (source : MetadataSource) (rows : List RawColumn)
      (found : Warned (List TableModel)),
    (∀ accepts, source.columns none none accepts = .ok (rows.filter fun row => accepts row.table.name)) ∧
      introspectAll {} source ({} : Settings).effectiveSpecs = .ok found ∧
      rows.map (·.table) = [.plain "%archive", .plain "orders"] ∧
      found.value.map (·.table) = [.plain "orders"] ∧ found.warnings = [] ∧
      ¬ ReachesTable {} source rows found (.plain "%archive") := by
  -- the pattern leaves the rows of the orders, and these are introspected
  have hrows : (selectingSource
      [rowOfType "%archive" "id" (-5), rowOfType "orders" "id" (-5)]).columns none none
      (TableSpec.named "%").matchesTable = .ok [rowOfType "orders" "id" (-5)] := by
    refine congrArg Except.ok ?_
    rw [List.filter_cons_of_neg, List.filter_cons_of_pos, List.filter_nil]
    all_goals
      rw [TableSpec.matchesTable_any_iff]
      simp [Like.LeadsOn, rowOfType, TableRef.plain]
  have hsame : introspect {} (TableSpec.named "%") (selectingSource _) =
      introspect {} (TableSpec.named "%") (keylessSource [rowOfType "orders" "id" (-5)]) :=
    introspect_congr rfl rfl rfl hrows fun _ => rfl
  have hsummary : (introspect {} (TableSpec.named "%")
      (keylessSource [rowOfType "orders" "id" (-5)])).toOption.map
      (fun found => (found.value.map (·.table), found.warnings))
        = some ([.plain "orders"], []) := by decide +kernel
  obtain ⟨found, hfound⟩ : ∃ found,
      introspect {} (TableSpec.named "%") (keylessSource [rowOfType "orders" "id" (-5)])
        = .ok found :=
    (TableSpec.readable_of_problems (by decide)).exists_introspect _ _
  rw [hfound] at hsummary
  obtain ⟨htables, hwarnings⟩ := Prod.mk.inj (Option.some.inj hsummary)
  refine ⟨selectingSource _, [rowOfType "%archive" "id" (-5), rowOfType "orders" "id" (-5)], found,
    fun _ => rfl, ?_, rfl, htables, hwarnings, fun h => ?_⟩
  · exact introspectAll_singleton.trans (hsame.trans hfound)
  · rcases h.told with ⟨model, hmodel, htable⟩ | ⟨w, hw, -⟩
    · have hmem := List.mem_map_of_mem (f := (·.table)) hmodel
      rw [htables, htable] at hmem
      exact absurd hmem (by decide)
    · rw [hwarnings] at hw
      exact absurd hw List.not_mem_nil

end TableMapper
