import TableMapper.Proofs.Artifact.RoleEffects
import TableMapper.Proofs.Run.Regeneration

/-!
# Roles without effect

A setting that gives a column a role and has no effect should be told of. The
warnings are written when a table is introspected and the effects come about
when its artifacts are generated, each by rules of its own. **Every setting
takes effect or a warning of the run names its column, but for the exempt ones
and a generated key whose column is ignored** (`RoleSetting.takesEffect_or_told`).
The exempt ones do occur, and no warning tells of them
(`RoleSetting.not_told_orders`).
-/

namespace TableMapper

/-! ## What a run reports -/

namespace Introspection

variable {settings : Settings} {source : MetadataSource}

/-- What is wrong with the tables of one specification is reported among what
is wrong with all of them. -/
theorem subset_warnings_introspectAll {specs : List TableSpec}
    {all found : Warned (List TableModel)} {spec : TableSpec}
    (h : introspectAll settings source specs = .ok all) (hspec : spec ∈ specs)
    (hfound : introspect settings spec source = .ok found) : found.warnings ⊆ all.warnings := by
  induction specs generalizing all with
  | nil => exact absurd hspec List.not_mem_nil
  | cons first rest ih =>
    obtain ⟨part, hpart, h⟩ := Except.exists_of_bind_eq_ok h
    obtain ⟨others, hothers, h⟩ := Except.exists_of_bind_eq_ok h
    cases h
    rcases List.mem_cons.1 hspec with rfl | hrest
    · cases hpart.symm.trans hfound
      exact List.subset_append_left _ _
    · exact List.subset_append_of_subset_right _ (ih hothers hrest)

end Introspection

/-- **A complete run reports what is wrong with the tables** of each of its
specifications. -/
theorem Job.Completes.subset_warnings {job : Job} {tree tree' : FileTree} {report : Report}
    {source : MetadataSource}
    {spec : TableSpec} {found : Warned (List TableModel)} (h : job.Completes tree report tree')
    (hspec : spec ∈ job.settings.effectiveSpecs) (hsource : job.metadata tree = .ok source)
    (hfound : Introspection.introspect job.settings spec source = .ok found) :
    found.warnings ⊆ report.warnings := by
  obtain ⟨source', plugins, all, ws, hsource', -, hall, -, -, rfl⟩ := Job.completes_iff.1 h
  cases hsource'.symm.trans hsource
  have hreported := Introspection.subset_warnings_introspectAll hall hspec hfound
  exact fun w hw => List.mem_append_left _ (List.mem_append_left _ (hreported hw))

namespace RoleSetting

/-! ## Every setting -/

/-- **A setting that gives a column a role takes effect, or a warning tells
that its column is not there.** This holds for every table that is built a
model for, and every complete run reports the warning. Exempt are filters on
the soft-delete column, timestamps that the database computes, and keys where
no insert is wanted; of a generated key whose column an ignore rule has hit
nothing is said. -/
theorem takesEffect_or_told (settings : Settings) {spec : TableSpec} (hspec : spec.problems = [])
    (source : MetadataSource) (named : List BuiltinPlugin) :
    ∃ found, Introspection.introspect settings spec source = .ok found ∧
      (∀ table ∈ found.value, ∀ role ∈ spec.roleSettings,
        let artifacts := (generateTable settings (named.map Plugin.builtin) table Generator.defaults).value
        role.TakesEffect table artifacts ∨ role.warning table.table ∈ found.warnings ∨
          role.IsExempt table artifacts ∨ (∃ k, role = .key k) ∧
          Introspection.IsIgnored spec source table role) ∧
      ∀ (job : Job) (tree tree' : FileTree) (report : Report), job.settings = settings →
        spec ∈ settings.effectiveSpecs → job.metadata tree = .ok source →
        job.Completes tree report tree' →
          found.warnings ⊆ report.warnings := by
  obtain ⟨found, hfound⟩ := Introspection.exists_introspect settings source hspec
  refine ⟨found, hfound, fun table htable role hrole => ?_, ?_⟩
  · have hkeeps := Introspection.keepsTo_of_mem_introspect hfound htable
    rcases Introspection.exists_names_or_told hfound htable hrole with hnamed | htold | hignored
    · exact (takesEffect_or_isExempt named hkeeps hrole hnamed).imp_right fun hexempt =>
        .inr (.inl hexempt)
    · exact .inr (.inl htold)
    · exact .inr (.inr (.inr hignored))
  · rintro job tree tree' report rfl hmem hsource hcompletes
    exact hcompletes.subset_warnings hmem hsource hfound

/-! ## A table of orders -/

/-- A run that only plans its files is complete, and reports what is wrong
with its tables. -/
theorem exists_completes_of_dryRun {settings : Settings} (hsettings : settings.problems = [])
    (hdry : settings.dryRun = true) (source : MetadataSource) (tree : FileTree) :
    ∃ report, (settings.job source).Completes tree report tree ∧
    report.warnings = settings.findings source := by
  have hwrites : ∀ artifacts : List Artifact,
      ∃ ws, Writing.Writes settings tree artifacts ws tree ∧ ws.flatMap (·.warnings) = [] := by
    intro artifacts
    induction artifacts with
    | nil => exact ⟨[], .nil tree, rfl⟩
    | cons a rest ih =>
      obtain ⟨ws, hrest, hquiet⟩ := ih
      have hplanned : a.write settings tree = .ok ⟨tree, ⟨.planned, a.target⟩, []⟩ := if_pos hdry
      exact ⟨_, .cons hplanned hrest, hquiet⟩
  obtain ⟨ws, hwrites, hquiet⟩ := hwrites (settings.artifacts source)
  refine ⟨_, (Settings.completes_iff_writes hsettings).2 ⟨ws, hwrites, rfl⟩, ?_⟩
  rw [hquiet, List.append_nil]

/-- A source with one table, whose last column the database may compute. -/
def ordersPlaced (computed : Bool) : MetadataSource where
  columns _ _ _ := .ok <|
    [("id", false), ("code", false), ("deleted", false), ("placed", computed)].map
    fun (name, generated) =>
      { table := .plain "orders", name, typeCode := 12, typeName := "VARCHAR", size := 20, scale := 0,
        nullable := false, remarks := none, defaultValue := none,
        autoIncrement := false, generated }
  primaryKey _ := .ok [⟨"id", 1⟩]
  remarks _ := .ok none

/-- The key of the table. -/
def ordersKey : GeneratedKey where
  column := "id"
  statement := "MYSQL"
  identity := true
  timing := none
  delimited := false

/-- The table with some filters, with or without an insert. -/
def ordersFilteredBy (filters : List String) (insert : Bool) : TableSpec :=
  { tableName := "orders", enableInsert := insert, filters := filters.map (⟨·, false⟩),
    softDelete := some ⟨"deleted", "0"⟩, createdColumn := some "placed",
    generatedKey := some ordersKey }

/-- A run that plans the files of a table. -/
def planning (spec : TableSpec) : Settings :=
  { dryRun := true, tables := [spec] }

/-- What is said below of a model: which of its columns the database computes,
the defaults of those that are inserted, and the properties of its query
condition. -/
structure RoleSummary where
  table : TableRef
  columns : List (String × Bool)
  defaults : List (Option String)
  properties : List String
deriving DecidableEq

/-- The summary of a model. -/
def RoleSummary.of (table : TableModel) : RoleSummary where
  table := table.table
  columns := table.columns.map fun c => (c.actualName, c.isGenerated)
  defaults := table.insertableColumns.map (Fragments.defaultValue? table)
  properties := table.queryFields.map (·.property)

/-- The model of the table, and a complete run over it. -/
theorem exists_model_orders (spec : TableSpec) (source : MetadataSource) (warnings : List Warning)
    (expected : RoleSummary) (hproblems : (planning spec).problems = [])
    (h : (Introspection.introspect (planning spec) spec source).toOption.map
      (fun found => (found.warnings, found.value.map RoleSummary.of))
        = some (warnings, [expected])) :
    ∃ found table report, Introspection.introspect (planning spec) spec source = .ok found ∧
    table ∈ found.value ∧
      ((planning spec).job source).Completes {} report {} ∧ found.warnings = warnings ∧
        report.warnings = (planning spec).findings source ∧ RoleSummary.of table = expected := by
  obtain ⟨report, hcompletes, hfindings⟩ := exists_completes_of_dryRun hproblems rfl source {}
  cases hfound : Introspection.introspect (planning spec) spec source with
  | error fault => rw [hfound] at h; cases h
  | ok found =>
    rw [hfound] at h
    obtain ⟨hwarnings, hmodels⟩ := Prod.mk.inj (Option.some.inj h)
    obtain ⟨table, htable, hsummary⟩ := List.map_eq_singleton_iff.1 hmodels
    exact ⟨found, table, report, rfl, htable ▸ List.mem_singleton_self _, hcompletes,
      hwarnings, hfindings, hsummary⟩

/-- The table with its columns, and a filter on one that it does not have. -/
def ordersComplete : TableSpec :=
  ordersFilteredBy ["code", "nope"] true

/-- **All settings but one take effect** for a table that has the other
columns, and a warning tells of the filter on a column that it does not
have. -/
theorem takesEffect_or_told_orders : ordersComplete.problems = [] ∧
    ∃ found table report,
      Introspection.introspect (planning ordersComplete) ordersComplete (ordersPlaced false) = .ok found ∧
      table ∈ found.value ∧ ((planning ordersComplete).job (ordersPlaced false)).Completes {} report {} ∧
      (∀ role ∈ [filter ⟨"code", false⟩, softDelete ⟨"deleted", "0"⟩, created "placed", key ordersKey],
        role ∈ ordersComplete.roleSettings ∧
          role.TakesEffect table (generateTable (planning ordersComplete) [] table Generator.defaults).value) ∧
      filter ⟨"nope", false⟩ ∈ ordersComplete.roleSettings ∧
      (filter ⟨"nope", false⟩).warning table.table ∈ report.warnings := by
  have hspec : ordersComplete.problems = [] := by decide +kernel
  obtain ⟨found, table, report, hfound, htable, hcompletes, hwarnings, -, hsummary⟩ :=
    exists_model_orders ordersComplete (ordersPlaced false)
      [.roleMissing "nope" .filter (.plain "orders")]
      ⟨.plain "orders", [("id", true), ("code", false), ("deleted", false), ("placed", false)],
        [none, some "0", some "now()"], ["code"]⟩ (by decide +kernel) (by decide +kernel)
  have hname : table.table = .plain "orders" := congrArg RoleSummary.table hsummary
  have hcolumn : ∀ column ∈ [("id", true), ("placed", false)],
      ∃ c ∈ table.columns, (c.actualName, c.isGenerated) = column := by
    intro column hcolumn
    rw [← List.mem_map, show table.columns.map _ = _ from congrArg RoleSummary.columns hsummary]
    revert column
    decide
  obtain ⟨found', hfound', hroles, hreported⟩ :=
    takesEffect_or_told (planning ordersComplete) hspec (ordersPlaced false) []
  cases hfound.symm.trans hfound'
  have hkeeps := (Introspection.keepsTo_of_mem_introspect hfound htable).spec_eq
  refine ⟨hspec, found, table, report, hfound, htable, hcompletes, ?_, by decide, ?_⟩
  · simp only [List.forall_mem_cons]
    refine ⟨⟨by decide, ?_⟩, ⟨by decide, ?_⟩, ⟨by decide, ?_⟩, ⟨by decide, ?_⟩,
      List.forall_mem_nil _⟩
    case refine_1 =>
      rcases hroles table htable (filter ⟨"code", false⟩)
        (by decide) with heffect | htold | hexempt | ⟨⟨k, hk⟩, -⟩
      · exact heffect
      · exact absurd htold (by simp [hwarnings, warning])
      · obtain ⟨s, hs, hsame, -⟩ := hexempt
        cases (congrArg TableSpec.softDelete hkeeps).symm.trans hs
        exact absurd hsame (by decide)
      · cases hk
    case refine_2 =>
      rcases hroles table htable (softDelete ⟨"deleted", "0"⟩) (by decide) with
        heffect | htold | hexempt | ⟨⟨k, hk⟩, -⟩
      · exact heffect
      · exact absurd htold (by simp [hwarnings, warning])
      · exact False.elim hexempt
      · cases hk
    case refine_3 =>
      rcases hroles table htable (created "placed")
        (by decide) with heffect | htold | hexempt | ⟨⟨k, hk⟩, -⟩
      · exact heffect
      · exact absurd htold (by simp [hwarnings, warning])
      · obtain ⟨c, hc, hplaced⟩ := hcolumn ("placed", false) (by decide)
        obtain ⟨hplacedName, hwritten⟩ := Prod.mk.inj hplaced
        have hgenerated := hexempt.2 c hc (by rw [ColumnModel.isNamed, hplacedName]; decide)
        exact Bool.noConfusion (hwritten.symm.trans hgenerated)
      · cases hk
    case refine_4 =>
      rcases hroles table htable (key ordersKey)
        (by decide) with heffect | htold | hexempt | ⟨-, hignored⟩
      · exact heffect
      · exact absurd htold (by simp [hwarnings, warning])
      · exact Bool.noConfusion ((congrArg TableSpec.enableInsert hkeeps).symm.trans hexempt.1)
      · obtain ⟨c, hc, hid⟩ := hcolumn ("id", true) (by decide)
        have habsent := hignored.absent c hc
        rw [(Prod.mk.inj hid).1] at habsent
        exact absurd habsent (by decide)
  · refine hreported _ {} {} report rfl (List.mem_singleton_self _) ?_ hcompletes ?_
    · exact Settings.metadata_job (by decide +kernel) _ _
    · rw [hwarnings, hname]
      exact List.mem_singleton_self _

/-- The table with a filter on its soft-delete column, and without an insert. -/
def ordersComputed : TableSpec :=
  ordersFilteredBy ["deleted"] false

/-- **Three of the settings have no effect, and no warning tells of them**: a
filter on the soft-delete column, a timestamp that the database computes, and
a key that no insert retrieves. -/
theorem not_told_orders : ordersComputed.problems = [] ∧
    ∃ found table report,
      Introspection.introspect (planning ordersComputed) ordersComputed (ordersPlaced true) = .ok found ∧
      table ∈ found.value ∧ ((planning ordersComputed).job (ordersPlaced true)).Completes {} report {} ∧
      report.warnings = [] ∧
      ∀ role ∈ [filter ⟨"deleted", false⟩, created "placed", key ordersKey], role ∈ ordersComputed.roleSettings ∧
        ¬ role.TakesEffect table (generateTable (planning ordersComputed) [] table Generator.defaults).value := by
  obtain ⟨found, table, report, hfound, htable, hcompletes, -, hreport, hsummary⟩ :=
    exists_model_orders ordersComputed (ordersPlaced true) []
      ⟨.plain "orders", [("id", true), ("code", false), ("deleted", false), ("placed", true)],
      [none, some "0"], []⟩ (by decide +kernel) (by decide +kernel)
  have hkeeps := Introspection.keepsTo_of_mem_introspect hfound htable
  have hfindings : (planning ordersComputed).findings (ordersPlaced true) = [] := by decide +kernel
  refine ⟨by decide +kernel, found, table, report, hfound, htable, hcompletes,
    hreport.trans hfindings, ?_⟩
  simp only [List.forall_mem_cons]
  refine ⟨⟨by decide, ?_⟩, ⟨by decide, ?_⟩, ⟨by decide, ?_⟩, List.forall_mem_nil _⟩
  case refine_1 =>
    -- without properties the condition is the text of the soft-delete column
    rintro ⟨c, -, -, -, helement⟩
    obtain ⟨e, he, p, hp, -⟩ := (hasElement_iff []).1 helement
    cases he
    rw [Evaluation.children_condition,
      List.map_eq_nil_iff.1 (congrArg RoleSummary.properties hsummary)] at hp
    obtain ⟨text, -, htext⟩ := List.mem_map.1 ((List.append_nil _) ▸ hp)
    exact nomatch htext
  case refine_2 =>
    rintro ⟨c, -, -, helement⟩
    obtain ⟨e, he, hbranch⟩ := (hasElement_iff []).1 helement
    cases he
    obtain ⟨d, hd, fallback, hdefault, htime⟩ := exists_default_of_hasTimeBranch hbranch
    have hdefaults : table.insertableColumns.map (Fragments.defaultValue? table)
        = [none, some "0"] :=
      congrArg RoleSummary.defaults hsummary
    have hmem : some fallback ∈ [none, some "0"] := hdefaults ▸ hdefault ▸ List.mem_map_of_mem hd
    obtain rfl : fallback = "0" := by simpa using hmem
    exact absurd htime (by decide)
  case refine_3 =>
    rintro ⟨c, -, -, helement⟩
    obtain ⟨e, he, -⟩ := (hasElement_iff []).1 helement
    obtain ⟨hinsert, -⟩ := Option.ite_none_right_eq_some.1 he
    exact Bool.noConfusion (hkeeps.insert.symm.trans hinsert)

end RoleSetting

end TableMapper
