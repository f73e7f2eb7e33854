import TableMapper.Artifact.Generator
import TableMapper.Proofs.Table.Introspected
import TableMapper.Proofs.Unit.Names

/-!
# Settings without problems

What the check of the settings rules out does not come up in a run: **with
settings in which no problem is found every metadata source can be
introspected** (`Introspection.exists_introspectAll`), every plugin is known,
and the packages are dotted names. Look-ups that fail leave warnings, never
an error.
-/

namespace TableMapper

/-! ## Checks that find nothing -/

theorem problemIf_eq_nil {condition : Bool} {p : Problem} :
    problemIf condition p = [] ↔ condition = false := by
  cases condition <;> simp [problemIf]

theorem problemIf_not_eq_nil {condition : Bool} {p : Problem} :
    problemIf (!condition) p = [] ↔ condition = true := by
  cases condition <;> simp [problemIf]

/-- Results that are all there, one after another. -/
theorem Except.exists_mapM {ε α β : Type} {f : α → Except ε β} {as : List α}
    (h : ∀ a ∈ as, ∃ b, f a = .ok b) :
    ∃ bs, as.mapM f = .ok bs := by
  induction as with
  | nil => exact ⟨[], rfl⟩
  | cons a as ih =>
    obtain ⟨⟨b, hb⟩, has⟩ := List.forall_mem_cons.1 h
    obtain ⟨bs, hbs⟩ := ih has
    exact ⟨b :: bs, by rw [List.mapM_cons, hb, hbs]; rfl⟩

/-- A pattern without problem can be read. -/
theorem Pattern.exists_compile {text : String} (h : isValid text = true) :
    ∃ p, compile text = .ok p := by
  rw [isValid] at h
  cases hcompile : compile text with
  | error fault =>
    rw [hcompile] at h
    exact nomatch h
  | ok p => exact ⟨p, rfl⟩

/-! ## Tables -/

theorem RenamingRule.exists_compile {rule : RenamingRule} {table setting : String}
    (h : rule.problems table setting = []) : ∃ renamer, rule.compile = .ok renamer := by
  rw [RenamingRule.problems] at h
  split at h
  · exact nomatch h
  · obtain ⟨p, hp⟩ := Pattern.exists_compile (problemIf_not_eq_nil.1 h)
    exact ⟨⟨p, rule.replace⟩, by rw [RenamingRule.compile, hp]; rfl⟩

namespace TableSpec

/-- **The patterns of a specification can be read**: those of its renaming
rules, and those of the columns it ignores. -/
structure Readable (spec : TableSpec) : Prop where
  domainObjectRenaming : ∀ rule ∈ spec.domainObjectRenaming, ∃ renamer, rule.compile = .ok renamer
  columnRenaming : ∀ rule ∈ spec.columnRenaming, ∃ renamer, rule.compile = .ok renamer
  ignoredPatterns : ∀ p ∈ spec.ignoredPatterns, ∃ pattern, Pattern.compile p.pattern = .ok pattern

section

variable {spec : TableSpec} (h : spec.problems = [])
include h

/-- The patterns of a specification without problems have none. -/
theorem readable_of_problems : spec.Readable := by
  simp only [problems, List.append_eq_nil_iff, List.flatMap_eq_nil_iff, Option.mem_toList] at h
  obtain ⟨⟨⟨⟨⟨-, hdomain⟩, hcolumn⟩, hpatterns⟩, -⟩, -⟩ := h
  exact ⟨fun rule hrule => RenamingRule.exists_compile (hdomain rule hrule),
    fun rule hrule => RenamingRule.exists_compile (hcolumn rule hrule),
    fun p hp => Pattern.exists_compile (problemIf_not_eq_nil.1 (hpatterns p hp))⟩

/-- The generated key of a specification without problems has none. -/
theorem problems_of_mem_generatedKey {k : GeneratedKey} (hk : k ∈ spec.generatedKey) :
    k.problems spec.tableName = [] := by
  simp only [problems, List.append_eq_nil_iff, List.flatMap_eq_nil_iff, Option.mem_toList] at h
  exact h.1.2 k hk

end

namespace Readable

variable {spec : TableSpec} (h : spec.Readable)
include h

theorem exists_domainObject (table : TableRef) : ∃ name, spec.domainObject table = .ok name := by
  rw [domainObject]
  cases hrule : spec.domainObjectRenaming with
  | none => exact ⟨_, rfl⟩
  | some rule =>
    obtain ⟨renamer, hrenamer⟩ := h.domainObjectRenaming rule hrule
    exact ⟨_, by simp only [hrenamer]; rfl⟩

theorem exists_ofColumns (settings : Settings) (table : TableRef) (columns : List ColumnModel)
    (remarks : Option String) :
    ∃ model, TableModel.ofColumns settings spec table columns remarks = .ok model := by
  obtain ⟨name, hname⟩ := h.exists_domainObject table
  rw [TableModel.ofColumns, hname]
  exact ⟨_, rfl⟩

theorem exists_columnRenaming : ∃ renamer, spec.columnRenaming.mapM (·.compile) = .ok renamer := by
  cases hrule : spec.columnRenaming with
  | none => exact ⟨none, rfl⟩
  | some rule =>
    obtain ⟨renamer, hrenamer⟩ := h.columnRenaming rule hrule
    exact ⟨some renamer, by rw [Option.mapM_some, hrenamer]; rfl⟩

theorem exists_ignoreRules : ∃ ignores, spec.ignoreRules = .ok ignores := by
  have hpatterns : ∀ p ∈ spec.ignoredPatterns, ∃ read : Pattern.Compiled × List String,
      (do return (← Pattern.compile p.pattern, p.except) : Except Pattern.Fault _) = .ok read := by
    intro p hp
    obtain ⟨pattern, hpattern⟩ := h.ignoredPatterns p hp
    exact ⟨(pattern, p.except), by rw [hpattern]; rfl⟩
  obtain ⟨patterns, hread⟩ := Except.exists_mapM hpatterns
  exact ⟨⟨spec.ignoredColumns, patterns⟩, by rw [ignoreRules, hread]; rfl⟩

theorem exists_buildTable (settings : Settings) (source : MetadataSource) (table : TableRef)
    (rows : List RawColumn) :
    ∃ built, Introspection.buildTable settings spec table source rows = .ok built := by
  obtain ⟨renamer, hrenamer⟩ := h.exists_columnRenaming
  obtain ⟨ignores, hignores⟩ := h.exists_ignoreRules
  rw [Introspection.buildTable, hrenamer, hignores]
  simp only [bind, Except.bind]
  split
  · exact ⟨_, rfl⟩
  · obtain ⟨model, hmodel⟩ := h.exists_ofColumns settings table
      (Introspection.withPrimaryKey table source
        ((rows.filter fun r => !ignores.ignores r.name).map
          (Introspection.resolveColumn settings spec renamer))).value
      (Introspection.remarksOf table source).value
    rw [hmodel]
    exact ⟨_, rfl⟩

theorem exists_buildTables (settings : Settings) (source : MetadataSource)
    (groups : Introspection.Groups) :
    ∃ built, Introspection.buildTables settings spec source groups = .ok built := by
  induction groups with
  | nil => exact ⟨_, rfl⟩
  | cons group rest ih =>
    obtain ⟨first, hfirst⟩ := h.exists_buildTable settings source group.1 group.2
    obtain ⟨others, hothers⟩ := ih
    exact ⟨_, by rw [Introspection.buildTables, hfirst, hothers]; rfl⟩

/-- **A specification whose patterns can be read can be introspected.** -/
theorem exists_introspect (settings : Settings) (source : MetadataSource) :
    ∃ found, Introspection.introspect settings spec source = .ok found := by
  rw [Introspection.introspect]
  split
  · exact ⟨_, rfl⟩
  next rows hrows =>
    split
    · exact ⟨_, rfl⟩
    next groups hgroups =>
      obtain ⟨built, hbuilt⟩ := h.exists_buildTables settings source (Introspection.groupRows rows)
      exact ⟨_, by rw [hbuilt]; rfl⟩

end Readable

theorem exists_ofColumns {spec : TableSpec} (h : spec.problems = [])
    (settings : Settings) (table : TableRef)
    (columns : List ColumnModel) (remarks : Option String) :
    ∃ model, TableModel.ofColumns settings spec table columns remarks = .ok model :=
  (readable_of_problems h).exists_ofColumns settings table columns remarks

end TableSpec

/-! ## Introspection -/

namespace Introspection

variable (settings : Settings) (source : MetadataSource)

theorem exists_introspect {spec : TableSpec} (h : spec.problems = []) :
    ∃ found, introspect settings spec source = .ok found :=
  (TableSpec.readable_of_problems h).exists_introspect settings source

/-- **Specifications without problems can be introspected**, whatever the
metadata. -/
theorem exists_introspectAll {specs : List TableSpec} (h : ∀ spec ∈ specs, spec.problems = []) :
    ∃ found, introspectAll settings source specs = .ok found := by
  induction specs with
  | nil => exact ⟨_, rfl⟩
  | cons spec rest ih =>
    obtain ⟨hspec, hrest⟩ := List.forall_mem_cons.1 h
    obtain ⟨first, hfirst⟩ := exists_introspect settings source hspec
    obtain ⟨others, hothers⟩ := ih hrest
    exact ⟨_, by rw [introspectAll, hfirst, hothers]; rfl⟩

end Introspection

/-! ## Settings -/

namespace Settings

variable {s : Settings}

theorem isDotted_of_packageProblems {setting value : String}
    (h : packageProblems setting value = []) :
    IsDotted value.toList := by
  rw [packageProblems] at h
  split at h
  · exact nomatch h
  · exact isDotted_of_isPackageName (problemIf_not_eq_nil.1 h)

/-- **What holds of settings without problems.** -/
structure Accepted (s : Settings) : Prop where
  modelPackage : IsDotted s.modelPackage.toList
  queryPackage : IsDotted s.queryPackage.toList
  clientPackage : IsDotted s.clientPackage.toList
  plugins : ∀ name ∈ s.plugins, ∃ p, BuiltinPlugin.ofName? name = some p
  specs : ∀ spec ∈ s.effectiveSpecs, spec.problems = []

theorem accepted_of_problems (h : s.problems = []) : s.Accepted := by
  simp only [problems, List.append_eq_nil_iff, List.flatMap_eq_nil_iff] at h
  obtain ⟨⟨⟨⟨⟨hmodel, hquery⟩, hclient⟩, -⟩, hplugins⟩, htables⟩ := h
  refine ⟨isDotted_of_packageProblems hmodel, isDotted_of_packageProblems hquery,
    isDotted_of_packageProblems hclient, fun name hname => ?_, fun spec hspec => ?_⟩
  · exact Option.isSome_iff_exists.1 (by simpa using problemIf_eq_nil.1 (hplugins name hname))
  · rw [effectiveSpecs] at hspec
    split at hspec
    · rw [List.mem_singleton.1 hspec]
      decide
    · exact htables spec hspec

/-- The plugins that accepted settings name are those the configuration can
name; further ones stand behind them. -/
theorem Accepted.exists_pluginChain_append (h : s.Accepted) (further : List Plugin) :
    ∃ named : List BuiltinPlugin,
    s.pluginChain further = .ok (named.map Plugin.builtin ++ further) := by
  have hnamed : ∀ (plugin : String → Except String Plugin) (names : List String),
      (∀ name ∈ names, ∃ p : BuiltinPlugin, plugin name = .ok (.builtin p)) →
        ∃ named : List BuiltinPlugin, names.mapM plugin = .ok (named.map Plugin.builtin) := by
    intro plugin names hnames
    induction names with
    | nil => exact ⟨[], rfl⟩
    | cons name names ih =>
      obtain ⟨⟨p, hp⟩, hrest⟩ := List.forall_mem_cons.1 hnames
      obtain ⟨named, hnamed⟩ := ih hrest
      exact ⟨p :: named, by rw [List.mapM_cons, hp, hnamed]; rfl⟩
  refine Exists.imp (fun named => congrArg fun chain => chain >>= fun first =>
    pure (first ++ further))
    (hnamed _ s.plugins fun name hname => ?_)
  obtain ⟨p, hp⟩ := h.plugins name hname
  exact ⟨p, by rw [hp]⟩

theorem Accepted.exists_pluginChain (h : s.Accepted) :
    ∃ named : List BuiltinPlugin, s.pluginChain [] = .ok (named.map Plugin.builtin) := by
  obtain ⟨named, hnamed⟩ := h.exists_pluginChain_append []
  exact ⟨named, hnamed.trans (congrArg Except.ok (List.append_nil _))⟩

end Settings

end TableMapper
