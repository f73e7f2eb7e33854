import TableMapper.Proofs.Artifact.PlainTable
import TableMapper.Proofs.Run.GeneratedArtifacts
import TableMapper.Proofs.Run.Phases

/-!
# Running twice

A second run over the same metadata should change nothing: every artifact is
merged into its own text and comes out as it was. **This holds exactly if no
artifact stands where another one needs a directory and the superclass of
serializable records can be read back** (`Settings.settles_iff`). A root class
whose name ends with `implements` is written in front of the interfaces of
the record and read back without this word, so its records are skipped by
every later run.
-/

namespace TableMapper

namespace Settings

/-! ## Runs over a metadata source -/

/-- A run over a metadata source, with the plugins that the settings name. -/
def job (settings : Settings) (source : MetadataSource) : Job :=
  { settings, source := some source }

/-- The models of the tables that the settings select. -/
def models (settings : Settings) (source : MetadataSource) : List TableModel :=
  match Introspection.introspectAll settings source settings.effectiveSpecs with
  | .ok found => found.value
  | .error _ => []

/-- The artifacts of these tables. -/
def artifacts (settings : Settings) (source : MetadataSource) : List Artifact :=
  match settings.pluginChain [] with
  | .ok plugins =>
    (settings.models source).flatMap fun table =>
      (generateTable settings plugins table Generator.defaults).value
  | .error _ => []

/-- Where they go. -/
def targets (settings : Settings) (source : MetadataSource) : List String :=
  (settings.artifacts source).map (·.target)

/-- **A second run changes nothing**: both runs are complete, and the second
one merges every artifact, leaves the tree as it is, and gives the warnings
of the first. -/
def Settles (settings : Settings) (source : MetadataSource) (tree : FileTree) : Prop :=
  ∃ first tree', (settings.job source).Completes tree first tree' ∧
    (settings.job source).Completes tree'
      ⟨Writing.allMerged (settings.artifacts source), first.warnings⟩ tree'

/-- **Settings that can be run again** over a metadata source: no problem is
found in them, they merge into existing files, all names are plain, and no
two artifacts have the same target. -/
structure AreRepeatable (settings : Settings) (source : MetadataSource) : Prop where
  problems : settings.problems = []
  merge : settings.merge = true
  dryRun : settings.dryRun = false
  names : ∀ table ∈ settings.models source, table.HasPlainNames
  recordRoot : ∀ root ∈ settings.recordRoot, IsTypeName root.typeName.toList
  queryRoot : ∀ root ∈ settings.queryRoot, IsTypeName root.toList
  targets : (settings.targets source).Nodup

end Settings

/-- **A tree with room for some targets**: none of them is there, and the
directory of each one can be made. -/
structure FileTree.HasRoomFor (tree : FileTree) (targets : List String) : Prop where
  free : ∀ target ∈ targets, tree.exists target = false
  directories : ∀ target ∈ targets, (Writing.withDirectory? tree target).isSome

/-- **There is room for generated artifacts**, each at a place of its own, if
their targets are different ones and there is room for these. -/
theorem Artifact.hasRoom_of_hasRoomFor {settings : Settings} {tree : FileTree}
    {artifacts : List Artifact}
    (hgenerated : ∀ a ∈ artifacts, a.IsGenerated settings)
    (htargets : (artifacts.map (·.target)).Nodup)
    (hroom : tree.HasRoomFor (artifacts.map (·.target))) :
    (∀ a ∈ artifacts, a.GoesToFile ∧ a.HasRoom tree) ∧ artifacts.Pairwise fun a b =>
  a.place ≠ b.place := by
  constructor
  · exact fun a ha => hasRoom_of_withDirectory? (hgenerated a ha).namesFile_target
      (hroom.free _ (List.mem_map_of_mem ha)) (hroom.directories _ (List.mem_map_of_mem ha))
  · exact (List.pairwise_map.1 htargets).imp_of_mem fun {a b} ha hb hne heq =>
      hne ((hgenerated a ha).target_eq_of_place_eq (hgenerated b hb) heq)

namespace Settings

section

variable {settings : Settings} {source : MetadataSource} {tree : FileTree}

/-- The tables and artifacts of settings without problems: all tables are
found, and their artifacts pass plugins that the settings can name. -/
theorem exists_artifacts_eq (h : settings.problems = []) (source : MetadataSource) :
    ∃ (named : List BuiltinPlugin) (found : Warned (List TableModel)),
      settings.pluginChain [] = .ok (named.map Plugin.builtin) ∧
      Introspection.introspectAll settings source settings.effectiveSpecs = .ok found ∧
      settings.models source = found.value ∧
      settings.artifacts source = found.value.flatMap fun table =>
        (generateTable settings (named.map Plugin.builtin) table Generator.defaults).value := by
  have haccepted := accepted_of_problems h
  obtain ⟨named, hplugins⟩ := haccepted.exists_pluginChain
  obtain ⟨found, hfound⟩ := Introspection.exists_introspectAll settings source haccepted.specs
  have hmodels : settings.models source = found.value := by rw [models, hfound]
  exact ⟨named, found, hplugins, hfound, hmodels, by rw [artifacts, hplugins, hmodels]⟩

theorem metadata_job (h : settings.problems = []) (source : MetadataSource) (tree : FileTree) :
    (settings.job source).metadata tree = .ok source := by
  show (do Failure.ofProblems settings.problems; return source) = _
  rw [h]
  rfl

/-- What is wrong with the tables that the settings select. -/
def findings (settings : Settings) (source : MetadataSource) : List Warning :=
  match Introspection.introspectAll settings source settings.effectiveSpecs with
  | .ok found => found.warnings ++ (settings.job source).warningsOf found.value
  | .error _ => []

/-- **What a run of settings without problems comes down to**: the artifacts
are written one after another, and the warnings of the other phases are the
same in every tree. -/
theorem completes_iff_writes (h : settings.problems = []) {report : Report} {tree' : FileTree} :
    (settings.job source).Completes tree report tree' ↔
      ∃ ws, Writing.Writes settings tree (settings.artifacts source) ws tree' ∧
        report = ⟨ws.map (·.outcome), settings.findings source ++ ws.flatMap (·.warnings)⟩ := by
  obtain ⟨named, found, hplugins, hfound, -, hartifacts⟩ := exists_artifacts_eq h source
  have hchain : (settings.job source).pluginChain = .ok (named.map Plugin.builtin) :=
    Except.mapError_eq_ok_iff.2 hplugins
  have hfindings : settings.findings source
      = found.warnings ++ (settings.job source).warningsOf found.value := by
    rw [findings, hfound]
  rw [Job.completes_iff, hartifacts, hfindings]
  constructor
  · rintro ⟨source', plugins, found', ws, hsource', hplugins', hfound', hwrites, -, hreport⟩
    cases (metadata_job h source tree).symm.trans hsource'
    cases hchain.symm.trans hplugins'
    cases hfound.symm.trans hfound'
    exact ⟨ws, hwrites, hreport⟩
  · rintro ⟨ws, hwrites, hreport⟩
    exact ⟨source, _, found, ws, metadata_job h source tree, hchain, hfound, hwrites,
      StopSignal.isSilent_never _ _, hreport⟩

/-- **If all names are plain all artifacts are generated**, and those of a
table tell whether the superclass of the records can be read back. -/
theorem isGenerated_of_mem_artifacts (hproblems : settings.problems = [])
    (hnames : ∀ table ∈ settings.models source, table.HasPlainNames)
    (hrecord : ∀ root ∈ settings.recordRoot, IsTypeName root.typeName.toList)
    (hquery : ∀ root ∈ settings.queryRoot, IsTypeName root.toList) :
    (∀ a ∈ settings.artifacts source, a.IsGenerated settings) ∧
      (settings.models source ≠ [] →
        ∃ a ∈ settings.artifacts source, a.mergeInto a.render = .ok a.render →
        settings.RootLegible) := by
  have haccepted := accepted_of_problems hproblems
  obtain ⟨named, found, -, hfound, hmodels, hartifacts⟩ := exists_artifacts_eq hproblems source
  let generated := fun table =>
    (generateTable settings (named.map Plugin.builtin) table Generator.defaults).value
  have htable : ∀ table ∈ found.value, (∀ a ∈ generated table, a.IsGenerated settings) ∧
      ∃ a ∈ generated table, a.mergeInto a.render = .ok a.render → settings.RootLegible := by
    intro table hmem
    have hplain := hnames table (hmodels ▸ hmem)
    have hderived := Introspection.isDerived_of_mem_introspectAll hfound hmem
    exact isGenerated_of_mem_generateTable named
      (hplain.isPlain hderived haccepted) hplain.domainObject
      hderived.mapperFile_eq hrecord hquery
  rw [hartifacts, hmodels]
  constructor
  · intro a ha
    obtain ⟨table, hmem, ha⟩ := List.mem_flatMap.1 ha
    exact (htable table hmem).1 a ha
  · intro hne
    obtain ⟨table, hmem⟩ := List.exists_mem_of_ne_nil _ hne
    obtain ⟨a, ha, hlegible⟩ := (htable table hmem).2
    exact ⟨a, List.mem_flatMap.2 ⟨table, hmem, ha⟩, hlegible⟩

namespace AreRepeatable

variable (h : settings.AreRepeatable source)
include h

theorem isGenerated_artifacts : (∀ a ∈ settings.artifacts source, a.IsGenerated settings) ∧
    (settings.models source ≠ [] →
      ∃ a ∈ settings.artifacts source, a.mergeInto a.render = .ok a.render →
      settings.RootLegible) :=
  isGenerated_of_mem_artifacts h.problems h.names h.recordRoot h.queryRoot

/-- **When a second run changes nothing**, artifact by artifact. -/
theorem settles_iff_mergeInto_render (hroom : tree.HasRoomFor (settings.targets source)) :
    settings.Settles source tree ↔
      (∀ a ∈ settings.artifacts source, ∀ b ∈ settings.artifacts source, ¬ a.Blocks b) ∧
        ∀ a ∈ settings.artifacts source, a.mergeInto a.render = .ok a.render := by
  obtain ⟨hgenerated, -⟩ := h.isGenerated_artifacts
  obtain ⟨hready, hplaces⟩ := Artifact.hasRoom_of_hasRoomFor hgenerated h.targets hroom
  rw [← Writing.merges_again_iff h.dryRun h.merge (fun a ha => (hready a ha).1)
    (fun a ha text hmerge => (hgenerated a ha).eq_render hmerge)
      (fun a ha => (hready a ha).2) hplaces]
  simp only [Settles, completes_iff_writes h.problems]
  constructor
  · rintro ⟨-, tree', ⟨ws, hfirst, rfl⟩, ws', hsecond, hreport⟩
    obtain ⟨houtcomes, hwarnings⟩ := Report.mk.inj hreport
    exact ⟨ws, tree', ws', hfirst, hsecond, houtcomes.symm,
      (List.append_cancel_left hwarnings).symm⟩
  · rintro ⟨ws, tree', ws', hfirst, hsecond, houtcomes, hwarnings⟩
    exact ⟨_, tree', ⟨ws, hfirst, rfl⟩, ws', hsecond, by rw [houtcomes, hwarnings]⟩

end AreRepeatable

/-- **When a second run changes nothing**: if no artifact stands where another
one needs a directory, and the superclass of the records can be read back if
there are any. -/
theorem settles_iff (h : settings.AreRepeatable source) (hroom : tree.HasRoomFor (settings.targets source)) :
    settings.Settles source tree ↔
      (∀ a ∈ settings.artifacts source, ∀ b ∈ settings.artifacts source, ¬ a.Blocks b) ∧
        (settings.models source ≠ [] → settings.RootLegible) := by
  rw [h.settles_iff_mergeInto_render hroom]
  obtain ⟨hgenerated, hrecord⟩ := h.isGenerated_artifacts
  refine and_congr_right fun _ => ⟨fun hmerges hne => ?_, fun hlegible a ha => ?_⟩
  · obtain ⟨a, ha, hlegible⟩ := hrecord hne
    exact hlegible (hmerges a ha)
  · refine (hgenerated a ha).mergeInto_render (hlegible fun hnone => ?_)
    -- without tables there are no artifacts
    rw [artifacts, hnone] at ha
    split at ha
    · exact absurd ha List.not_mem_nil
    · exact absurd ha List.not_mem_nil

end

/-! ## Records under a root class -/

/-- A source with one table of one column. -/
def orders : MetadataSource where
  columns _ _ _ := .ok [
    { table := .plain "orders", name := "code", typeCode := 12, typeName := "VARCHAR", size := 20, scale := 0,
      nullable := false, remarks := none, defaultValue := none, autoIncrement :=
      false, generated := false }]
  primaryKey _ := .ok []
  remarks _ := .ok none

/-- Settings for serializable records under a root class. -/
def serializableUnder (root : String) : Settings :=
  { serializable := true, recordRoot := some ⟨root, []⟩, tables := [.named "orders"] }

/-- The names in a model that end up in source files. -/
def plainParts (table : TableModel) :
    String × List (String × String) × List String × List (List String) :=
  (table.names.domainObject, table.columns.map fun c => (c.property, c.javaType.qualifiedName),
    table.spec.orderByField.toList ++ table.spec.offsetField.toList ++ table.spec.limitField.toList,
    typeJavadoc table :: table.columns.map fun c => (BeanProperty.ofColumn table c).doc)

/-- What they are for the table `orders`. -/
def ordersParts : String × List (String × String) × List String × List (List String) :=
  ("Orders", [("code", "java.lang.String")], [],
    [["Table: orders", "", "@mapper.generated"], ["Column: orders.code"]])

/-- A table has plain names if its parts are plain. -/
theorem hasPlainNames_of_parts {table : TableModel} {object : String}
    {columns : List (String × String)}
    {docs : List (List String)} (h : plainParts table = (object, columns, [], docs))
    (hobject : IsIdentifier object.toList)
    (hcolumns : ∀ column ∈ columns, IsIdentifier column.1.toList ∧ IsTypeName column.2.toList)
    (hdocs : ∀ doc ∈ docs, ∀ line ∈ doc, '/' ∉ line.toList) : table.HasPlainNames := by
  simp only [plainParts, Prod.mk.injEq, List.append_eq_nil_iff, Option.toList_eq_nil_iff] at h
  obtain ⟨rfl, rfl, ⟨⟨horder, hoffset⟩, hlimit⟩, rfl⟩ := h
  obtain ⟨hjavadoc, hdocs⟩ := List.forall_mem_cons.1 hdocs
  constructor
  case domainObject => exact hobject
  case properties => exact fun c hc => (hcolumns _ (List.mem_map_of_mem hc)).1
  case types => exact fun c hc => (hcolumns _ (List.mem_map_of_mem hc)).2
  case orderBy => simp [horder]
  case offset => simp [hoffset]
  case limit => simp [hlimit]
  case javadoc => exact isJavadoc_of_not_mem hjavadoc
  case columnJavadoc => exact fun c hc => isJavadoc_of_not_mem (hdocs _ (List.mem_map_of_mem hc))

theorem isTypeName_string : IsTypeName "java.lang.String".toList :=
  (isDotted_of_isPackageName (by decide)).isTypeName

theorem hasPlainNames_of_plainParts {table : TableModel} (h : plainParts table = ordersParts) :
    table.HasPlainNames :=
  hasPlainNames_of_parts h (by decide)
    (List.forall_mem_singleton.2 ⟨by decide, isTypeName_string⟩) (by decide)

/-- The targets of the table `orders`. -/
def ordersTargets : List String :=
  ["./generated/java/com/example/model/Orders.java",
    "./generated/java/com/example/query/OrdersQC.java",
    "./generated/java/com/example/mapper/OrdersMapper.java",
    "./generated/resources/mapper/OrdersMapper.xml"]

/-- There is room for them in the empty tree. -/
theorem hasRoomFor_ordersTargets : ({} : FileTree).HasRoomFor ordersTargets :=
  ⟨by decide +kernel, by decide +kernel⟩

/-- None of them is on the way to another one. -/
theorem apart_ordersTargets : ∀ target ∈ ordersTargets, ∀ other ∈ ordersTargets,
    ¬ Path.location target <+: Path.location (Path.parent other) := by decide +kernel

theorem areRepeatable_serializableUnder {root : String} (hroot : isPackageName root = true)
    (hproblems : (serializableUnder root).problems = [])
    (hmodels : ((serializableUnder root).models orders).map plainParts = [ordersParts])
    (htargets : (serializableUnder root).targets orders = ordersTargets) :
    (serializableUnder root).AreRepeatable orders ∧
    ({} : FileTree).HasRoomFor ((serializableUnder root).targets orders) := by
  obtain ⟨model, hmodel, hparts⟩ := List.map_eq_singleton_iff.1 hmodels
  rw [htargets]
  refine ⟨⟨hproblems, rfl, rfl, ?_, ?_, nofun, ?_⟩, hasRoomFor_ordersTargets⟩
  · rw [hmodel]
    exact List.forall_mem_singleton.2 (hasPlainNames_of_plainParts hparts)
  · rintro _ ⟨⟩
    exact (isDotted_of_isPackageName hroot).isTypeName
  · rw [htargets]
    decide

/-- A root class with another name is read back: a second run changes
nothing. -/
theorem settles_underBase : (serializableUnder "b.Base").AreRepeatable orders ∧
    ({} : FileTree).HasRoomFor ((serializableUnder "b.Base").targets orders) ∧
    (serializableUnder "b.Base").models orders ≠ [] ∧ (serializableUnder "b.Base").Settles orders {} := by
  have hmodels : ((serializableUnder "b.Base").models orders).map plainParts = [ordersParts] := by
    decide +kernel
  have htargets : (serializableUnder "b.Base").targets orders = ordersTargets := by decide +kernel
  obtain ⟨hrepeatable, hroom⟩ :=
    areRepeatable_serializableUnder (by decide) (by decide +kernel) hmodels htargets
  refine ⟨hrepeatable, hroom, fun hnone => by simp [hnone] at hmodels,
    (settles_iff hrepeatable hroom).2 ⟨?_, ?_⟩⟩
  · have hapart := apart_ordersTargets
    rw [← htargets] at hapart
    exact fun a ha b hb => hapart _ (List.mem_map_of_mem ha) _ (List.mem_map_of_mem hb)
  · rintro - - _ ⟨⟩
    decide

/-- **A root class called `Toolimplements` is not read back**: the second run
skips the record that the first one wrote. -/
theorem not_settles_underToolimplements : (serializableUnder "b.Toolimplements").AreRepeatable orders ∧
    ({} : FileTree).HasRoomFor ((serializableUnder "b.Toolimplements").targets orders) ∧
    ¬ (serializableUnder "b.Toolimplements").Settles orders {} := by
  have hmodels : ((serializableUnder "b.Toolimplements").models orders).map plainParts
      = [ordersParts] := by decide +kernel
  have htargets : (serializableUnder "b.Toolimplements").targets orders = ordersTargets := by
    decide +kernel
  obtain ⟨hrepeatable, hroom⟩ :=
    areRepeatable_serializableUnder (by decide) (by decide +kernel) hmodels htargets
  refine ⟨hrepeatable, hroom, fun hsettles => ?_⟩
  obtain ⟨a, ha, hlegible⟩ :=
    hrepeatable.isGenerated_artifacts.2 fun hnone => by simp [hnone] at hmodels
  have hmerge := ((hrepeatable.settles_iff_mergeInto_render hroom).1 hsettles).2 a ha
  exact hlegible hmerge rfl _ rfl (by decide)

end Settings

end TableMapper
