import TableMapper.Proofs.Artifact.Classes
import TableMapper.Proofs.Merge.OpenElement
import TableMapper.Proofs.Run.Clashes
import TableMapper.Proofs.Run.Regeneration
import TableMapper.Proofs.Unit.SealedComments

/-!
# Tables whose records share a target

Where the record of a table goes is up to its domain object, and nothing
keeps two tables of a run from having the same one: tables of one name in two
catalogs, or one table that two specifications select. Without merging the
run warns of every artifact whose target is taken. With merging it does not,
so **a record has a field for every column of its table if no other artifact
goes to its place** (`Settings.stands_or_warned`), and otherwise it may not:
of two tables called `orders` the first one loses its record to the second
one, and no warning tells of it (`Settings.not_hasRecord_twoOrders`).
-/

namespace TableMapper

/-! ## Artifacts with any names -/

section

variable {settings : Settings} {table : TableModel} {plugins : PluginChain} {a : Artifact}

/-- An artifact of a table is a unit, or a document in the mapper file. -/
theorem eq_ofUnit_or_ofDocument
    (h : a ∈ (generateTable settings plugins table Generator.defaults).value) :
    (∃ kind unit, a = .ofUnit kind settings.targetProject unit) ∨
      ∃ document, a = .ofDocument settings.mapperProject settings.mapperPackage
        table.names.mapperFile document := by
  rw [Generator.defaults] at h
  simp only [value_generateTable_cons, List.mem_append] at h
  rcases h with hrecord | hquery | hmapper | hdocument | hnone
  · obtain ⟨unit, -, rfl⟩ := List.mem_map.1 hrecord
    exact .inl ⟨_, unit, rfl⟩
  · obtain ⟨unit, -, rfl⟩ := List.mem_map.1 hquery
    exact .inl ⟨_, unit, rfl⟩
  · obtain ⟨unit, -, rfl⟩ := List.mem_map.1 hmapper
    exact .inl ⟨_, unit, rfl⟩
  · obtain ⟨document, -, rfl⟩ := List.mem_map.1 hdocument
    exact .inr ⟨document, rfl⟩
  · exact absurd hnone List.not_mem_nil

/-- Where a unit goes is up to its type. -/
theorem Artifact.target_ofUnit {u v : JavaUnit} (kind : ArtifactKind) (project : String)
    (h : u.type = v.type) :
    (ofUnit kind project u).target = (ofUnit kind project v).target ∧
      (ofUnit kind project u).unplaced = (ofUnit kind project v).unplaced := by
  unfold ofUnit JavaUnit.fileName
  rw [h]
  exact ⟨rfl, rfl⟩

/-- **Every artifact of a run can go to a file**, whatever the names of its
table. -/
theorem Settings.namesFile_of_mem_artifacts {source : MetadataSource}
    (hsettings : settings.problems = [])
    (ha : a ∈ settings.artifacts source) : Path.NamesFile a.target := by
  obtain ⟨named, found, -, hfound, -, hartifacts⟩ := exists_artifacts_eq hsettings source
  rw [hartifacts] at ha
  obtain ⟨table, htable, ha⟩ := List.mem_flatMap.1 ha
  refine Artifact.namesFile_target ?_
  rcases eq_ofUnit_or_ofDocument ha with ⟨kind, unit, rfl⟩ | ⟨document, rfl⟩
  · refine ⟨(unit.type.shortName ++ ".jav").toList, 'a', ?_, by decide, by decide⟩
    show (unit.type.shortName ++ ".java").toList = _
    simp
  · have hderived := Introspection.isDerived_of_mem_introspectAll hfound htable
    refine ⟨(table.names.domainObject ++ ArtifactNames.mapperSuffix ++ ".xm").toList, 'l',
      ?_, by decide, by decide⟩
    show table.names.mapperFile.toList = _
    rw [hderived.mapperFile_eq]
    simp

end

/-! ## Records of any table -/

namespace Record

variable {settings : Settings} {table : TableModel}

/-- **A text declares the columns of a table**: a field for each one, unless
the root class declares its property. -/
def DeclaresColumns (settings : Settings) (table : TableModel) (text : String) : Prop :=
  ∀ c ∈ table.columns, (BeanProperty.ofColumn table c).field.declaration.toList ++
    [';'] <:+: text.toList ∨
    ∃ root ∈ settings.recordRoot, c.property ∈ root.properties.map Text.trimmed

/-- **The record of a table has a field for every column**, whichever of the
plugins that the settings can name are at work. -/
theorem exists_generate_declaresColumns (named : List BuiltinPlugin) :
    ∃ record, (generate settings table (named.map Plugin.builtin)).value =
        [.ofUnit .record settings.targetProject record] ∧
      record.type = table.names.recordType ∧ DeclaresColumns settings table record.render := by
  obtain ⟨record, hvalue, htype, front, hfields⟩ := exists_generate settings table
    (PluginChain.passes_modelField named .record)
      (PluginChain.exists_offer_modelClass named table .record)
  refine ⟨record, hvalue, htype,
    fun c hc => (field_mem_or_listed settings table hfields hc).imp_left fun hmem => ?_⟩
  have hmember : (BeanProperty.ofColumn table c).field.render ∈ record.memberTexts :=
    List.mem_append_left _ (List.mem_append_left _ (List.mem_map_of_mem hmem))
  refine List.IsInfix.trans ?_ (JavaUnit.infix_render hmember)
  rw [Field.toList_render rfl]
  exact (List.prefix_append _ _).isInfix.trans (List.suffix_append _ _).isInfix

end Record

namespace Settings

/-! ## Runs -/

section

variable {settings : Settings} {source : MetadataSource} {tree tree' : FileTree}
  {report : Report} {table : TableModel}
  {a b : Artifact}

/-- The record of a table before its properties are added; it goes where the
record goes. -/
def bareRecord (settings : Settings) (table : TableModel) : Artifact :=
  .ofUnit .record settings.targetProject (Record.bare settings table)

/-- **A target that one artifact of a run goes to**, and no other one to its
place. -/
def GoesAlone (settings : Settings) (source : MetadataSource) (target : String) : Prop :=
  ((settings.targets source).map Path.location).count (Path.location target) = 1

/-- The places of the targets of a run. -/
theorem map_location_targets (settings : Settings) (source : MetadataSource) :
    (settings.targets source).map Path.location = (settings.artifacts source).map (·.place) := by
  simp only [targets, List.map_map, Function.comp_def]
  rfl

/-- If all artifacts go to different places each one goes alone. -/
theorem goesAlone_of_pairwise
    (h : (settings.artifacts source).Pairwise fun a b => a.place ≠ b.place)
    (ha : a ∈ settings.artifacts source) : settings.GoesAlone source a.target := by
  rw [GoesAlone, map_location_targets]
  exact List.count_eq_one_of_mem (List.pairwise_map.2 h) (List.mem_map_of_mem ha)

/-- **The record of a table stands in a tree**, with a field for every
column. -/
def HasRecord (settings : Settings) (tree : FileTree) (table : TableModel) : Prop :=
  ∃ text, tree.readText (settings.bareRecord table).target = .ok text ∧
    Record.DeclaresColumns settings table text

/-- **Every table of a run has a record** among the artifacts, whatever its
names. -/
theorem exists_record_mem_artifacts (hsettings : settings.problems = [])
    (htable : table ∈ settings.models source) :
    ∃ a ∈ settings.artifacts source, a.target = (settings.bareRecord table).target ∧
      a.unplaced = (settings.bareRecord table).unplaced ∧
      Record.DeclaresColumns settings table a.render := by
  obtain ⟨named, found, -, hfound, hmodels, hartifacts⟩ := exists_artifacts_eq hsettings source
  obtain ⟨record, hvalue, htype, hdeclares⟩ :=
    @Record.exists_generate_declaresColumns settings table named
  have hbare : record.type = (Record.bare settings table).type :=
    htype.trans (Record.type_bare settings table).symm
  obtain ⟨htarget, hunplaced⟩ := Artifact.target_ofUnit .record settings.targetProject hbare
  refine ⟨.ofUnit .record settings.targetProject record, ?_, htarget, hunplaced, hdeclares⟩
  rw [hartifacts]
  refine List.mem_flatMap.2 ⟨table, hmodels ▸ htable, ?_⟩
  rw [Generator.defaults, value_generateTable_cons]
  exact List.mem_append_left _ (hvalue ▸ List.mem_singleton_self _)

/-- **No artifact of a run takes the place of another one unnoticed, unless
existing files are merged into.** Without merging there is a warning for each
artifact behind another one with its target. With merging, in a run from the
empty tree, every artifact that goes alone to its place stands there in the
end as it was rendered, or there is a warning that its directory could not be
made; so the record of a table that goes alone to its place has a field for
every column. -/
theorem stands_or_warned (hsettings : settings.problems = []) (hdry : settings.dryRun = false)
    (h : (settings.job source).Completes tree report tree') :
    (settings.merge = false → ∀ a b, [a, b].Sublist (settings.artifacts source) → a.target = b.target →
      ∃ warning ∈ report.warnings, b.TellsOf warning) ∧
    (settings.merge = true → tree = {} →
      (∀ a ∈ settings.artifacts source, settings.GoesAlone source a.target →
        tree'.readText a.target = .ok a.render ∨ a.unplaced ∈ report.warnings) ∧
      ∀ table ∈ settings.models source, settings.GoesAlone source (settings.bareRecord table).target →
        settings.HasRecord tree' table ∨ (settings.bareRecord table).unplaced ∈ report.warnings) := by
  obtain ⟨ws, hwrites, rfl⟩ := (completes_iff_writes hsettings).1 h
  have hnames : ∀ a ∈ settings.artifacts source, Path.NamesFile a.target := fun a ha =>
    namesFile_of_mem_artifacts hsettings ha
  constructor
  · intro hmerge a b hsub hsame
    obtain ⟨warning, hwarning, htells⟩ := hwrites.exists_warning hdry hmerge hnames hsub hsame
    exact ⟨warning, List.mem_append_right _ hwarning, htells⟩
  · rintro hmerge rfl
    have hstands : ∀ a ∈ settings.artifacts source, settings.GoesAlone source a.target →
        tree'.readText a.target = .ok a.render ∨
          a.unplaced ∈ settings.findings source ++ ws.flatMap (·.warnings) := by
      intro a ha halone
      rw [GoesAlone, map_location_targets] at halone
      rcases hwrites.isWritten_of_alone hdry hmerge ha (FileTree.contentAt?_empty _)
        halone with hwritten | hwarning
      · exact .inl (hwritten.readText (hnames a ha))
      · exact .inr (List.mem_append_right _ hwarning)
    refine ⟨hstands, fun table htable halone => ?_⟩
    obtain ⟨a, ha, htarget, hunplaced, hdeclares⟩ := exists_record_mem_artifacts hsettings htable
    rw [← htarget] at halone
    rcases hstands a ha halone with hread | hwarning
    · exact .inl ⟨a.render, htarget ▸ hread, hdeclares⟩
    · exact .inr (hunplaced ▸ hwarning)

end

/-! ## Tables called `orders` -/

/-- Generated artifacts with the targets of the table `orders` are all created
in the empty tree. -/
theorem exists_writes_ordersTargets {settings : Settings} {artifacts : List Artifact}
    (hdry : settings.dryRun = false)
    (hgenerated : ∀ a ∈ artifacts, a.IsGenerated settings)
    (htargets : artifacts.map (·.target) = ordersTargets) :
    (∀ a ∈ artifacts, a.GoesToFile) ∧ (artifacts.Pairwise fun a b => a.place ≠ b.place) ∧
      ∃ ws tree, Writing.Writes settings {} artifacts ws tree ∧ ws.flatMap (·.warnings) = [] ∧
        ∀ a ∈ artifacts, a.IsWritten tree := by
  have hroom : ({} : FileTree).HasRoomFor (artifacts.map (·.target)) := by
    rw [htargets]
    exact hasRoomFor_ordersTargets
  have hdistinct : (artifacts.map (·.target)).Nodup := by
    rw [htargets]
    decide
  have hapart := apart_ordersTargets
  rw [← htargets] at hapart
  obtain ⟨hready, hplaces⟩ := Artifact.hasRoom_of_hasRoomFor hgenerated hdistinct hroom
  obtain ⟨ws, tree, hwrites, hwarnings, hwritten, -⟩ :=
    Writing.exists_writes_of_hasRoom hdry (fun a ha => (hready a ha).1)
      (fun a ha => (hready a ha).2) hplaces
      fun a ha b hb => hapart _ (List.mem_map_of_mem ha) _ (List.mem_map_of_mem hb)
  exact ⟨fun a ha => (hready a ha).1, hplaces, ws, tree, hwrites, hwarnings, hwritten⟩

/-- The record of a single table called `orders` stands in the tree after a
run that merges. -/
theorem stands_or_warned_orders : ({} : Settings).models orders ≠ [] ∧
    ∃ report tree', (({} : Settings).job orders).Completes {} report tree' ∧
      ∀ table ∈ ({} : Settings).models orders, ({} : Settings).HasRecord tree' table := by
  have hproblems : ({} : Settings).problems = [] := by decide +kernel
  have hmodels : (({} : Settings).models orders).map plainParts = [ordersParts] := by decide +kernel
  have htargets : ({} : Settings).targets orders = ordersTargets := by decide +kernel
  have hfindings : ({} : Settings).findings orders = [.noPrimaryKey (.plain "orders")] := by
    decide +kernel
  have hnames : ∀ table ∈ ({} : Settings).models orders, table.HasPlainNames := fun table htable =>
    hasPlainNames_of_plainParts (List.mem_singleton.1 (hmodels ▸ List.mem_map_of_mem htable))
  obtain ⟨hgenerated, -⟩ := isGenerated_of_mem_artifacts hproblems hnames nofun nofun
  obtain ⟨-, hplaces, ws, tree', hwrites, hwarnings, -⟩ :=
    exists_writes_ordersTargets rfl hgenerated htargets
  have hcompletes := (completes_iff_writes hproblems).2 ⟨ws, hwrites, rfl⟩
  refine ⟨fun hnone => by simp [hnone] at hmodels, _, tree', hcompletes, fun table htable => ?_⟩
  obtain ⟨a, ha, htarget, -⟩ := exists_record_mem_artifacts hproblems htable
  have hstands := ((stands_or_warned hproblems rfl hcompletes).2 rfl rfl).2 table htable
    (htarget ▸ goesAlone_of_pairwise hplaces ha)
  refine hstands.resolve_right fun hwarning => ?_
  rw [hfindings, hwarnings] at hwarning
  exact nomatch List.mem_singleton.1 hwarning

end Settings

/-! ## Tables that replace others -/

/-- The heading of an artifact that extends and implements nothing. -/
inductive BareHeading
  | unit (kind : TypeKind) (imports annotations : List String)
  | document (root : String) (space : Option String) (ids : List String)
deriving DecidableEq

namespace Artifact

variable {settings : Settings} {a b : Artifact} {first second : List Artifact}
  {heading : BareHeading}

/-- The heading of an artifact, unless it extends or implements something. -/
def bareHeading? (a : Artifact) : Option BareHeading :=
  match a.body with
  | .java u =>
    if u.superclass.isNone ∧
      u.superInterfaces.isEmpty then some (.unit u.kind u.imports u.annotations) else none
  | .markup d => some (.document d.root.name (d.root.attribute? "namespace") d.ids)

/-- Artifacts that extend and implement nothing have the same heading if it
says so. -/
theorem sameHeading_of_bareHeading? (ha : a.bareHeading? = some heading)
    (hb : b.bareHeading? = some heading) :
    b.SameHeading a := by
  unfold SameHeading
  cases hbodyA : a.body with
  | java v =>
    simp only [bareHeading?, hbodyA] at ha
    obtain ⟨⟨hsuper, hinterfaces⟩, ha⟩ := Option.ite_none_right_eq_some.1 ha
    cases ha
    cases hbodyB : b.body with
    | java u =>
      simp only [bareHeading?, hbodyB] at hb
      obtain ⟨⟨hsuper', hinterfaces'⟩, hb⟩ := Option.ite_none_right_eq_some.1 hb
      obtain ⟨hkind, himports, hannotations⟩ := BareHeading.unit.inj (Option.some.inj hb)
      rw [Option.isNone_iff_eq_none] at hsuper hsuper'
      rw [List.isEmpty_iff] at hinterfaces hinterfaces'
      exact ⟨hkind.symm, hsuper.trans hsuper'.symm, himports.symm,
        hinterfaces.trans hinterfaces'.symm, hannotations.symm⟩
    | markup d =>
      simp only [bareHeading?, hbodyB] at hb
      exact nomatch hb
  | markup e =>
    simp only [bareHeading?, hbodyA] at ha
    cases ha
    cases hbodyB : b.body with
    | java u =>
      simp only [bareHeading?, hbodyB] at hb
      exact nomatch (Option.ite_none_right_eq_some.1 hb).2
    | markup d =>
      simp only [bareHeading?, hbodyB] at hb
      obtain ⟨hname, hspace, hids⟩ := BareHeading.document.inj (Option.some.inj hb)
      exact ⟨hname.symm, hspace.symm, hids.symm⟩

/-- The target and heading of an artifact. -/
def parts (a : Artifact) : String × Option BareHeading :=
  (a.target, a.bareHeading?)

/-- **Generated artifacts replace others with their targets and headings.** -/
theorem forall₂_replaces {parts : List (String × BareHeading)} (hroot : settings.RootLegible)
    (hfirst : ∀ a ∈ first, a.IsGenerated settings) (hsecond : ∀ b ∈ second, b.IsGenerated settings)
    (hparts : first.map Artifact.parts = parts.map fun part => (part.1, some part.2))
    (hparts' : second.map Artifact.parts = parts.map fun part => (part.1, some part.2)) :
    List.Forall₂ (·.Replaces ·) second first := by
  induction parts generalizing first second with
  | nil =>
    cases List.map_eq_nil_iff.1 hparts
    cases List.map_eq_nil_iff.1 hparts'
    exact .nil
  | cons part parts ih =>
    obtain ⟨a, first, rfl, ha, hparts⟩ := List.map_eq_cons_iff.1 hparts
    obtain ⟨b, second, rfl, hb, hparts'⟩ := List.map_eq_cons_iff.1 hparts'
    obtain ⟨hgeneratedA, hfirst⟩ := List.forall_mem_cons.1 hfirst
    obtain ⟨hgeneratedB, hsecond⟩ := List.forall_mem_cons.1 hsecond
    obtain ⟨htarget, hheading⟩ := Prod.mk.inj ha
    obtain ⟨htarget', hheading'⟩ := Prod.mk.inj hb
    refine .cons ⟨htarget'.trans htarget.symm, ?_⟩ (ih hfirst hsecond hparts hparts')
    exact hgeneratedA.mergeInto_render_of_sameHeading hgeneratedB hroot
      (sameHeading_of_bareHeading? hheading hheading')

end Artifact

namespace Settings

/-- **A run whose later artifacts replace the first ones is complete**, and no
warning tells of it; the later ones stand in the tree. -/
theorem exists_completes_of_replaces {settings : Settings} {source : MetadataSource}
    {first second : List Artifact}
    (hsettings : settings.problems = []) (hdry : settings.dryRun = false)
    (hmerge : settings.merge = true)
    (hartifacts : settings.artifacts source = first ++ second)
    (hgenerated : ∀ a ∈ first ++ second, a.IsGenerated settings)
    (hfirst : first.map (·.target) = ordersTargets)
    (hsecond : second.map (·.target) = ordersTargets)
    (hreplaces : List.Forall₂ (·.Replaces ·) second first) :
    ∃ report tree', (settings.job source).Completes {} report tree' ∧
    report.warnings = settings.findings source ∧
      ∀ b ∈ second, tree'.readText b.target = .ok b.render := by
  obtain ⟨hgenerated, hgenerated'⟩ := List.forall_mem_append.1 hgenerated
  obtain ⟨-, -, ws, tree, hwrites, hwarnings, hwritten⟩ :=
    exists_writes_ordersTargets hdry hgenerated hfirst
  obtain ⟨hgoes, hplaces, -⟩ := exists_writes_ordersTargets hdry hgenerated' hsecond
  obtain ⟨ws', tree', hwrites', hwarnings', hwritten', -⟩ :=
    Writing.exists_writes_of_replaces hdry hmerge hreplaces hgoes hplaces hwritten
  have hcompletes := (completes_iff_writes hsettings).2
    ⟨ws ++ ws', hartifacts ▸ hwrites.append hwrites', rfl⟩
  refine ⟨_, tree', hcompletes, ?_, fun b hb => (hwritten' b hb).readText (hgoes b hb).target⟩
  rw [List.flatMap_append, hwarnings, hwarnings', List.append_nil, List.append_nil]

/-! ## Two tables called `orders` -/

/-- A key column of a table called `orders` in a catalog. -/
def ordersColumn (catalog name : String) : RawColumn where
  table := ⟨some catalog, none, "orders"⟩
  name
  typeCode := 12
  typeName := "VARCHAR"
  size := 20
  scale := 0
  nullable := false
  remarks := none
  defaultValue := none
  autoIncrement := false
  generated := false

/-- A source with two tables called `orders`, each with one column, which is
its key. -/
def twoOrders : MetadataSource where
  columns _ _ _ := .ok [ordersColumn "archive" "shipped", ordersColumn "sales" "placed"]
  primaryKey table := .ok [⟨if table.catalog = some "archive" then "shipped" else "placed", 1⟩]
  remarks _ := .ok none

/-- The plain parts of such a table. -/
def twoOrdersParts (catalog column : String) :
    String × List (String × String) × List String × List (List String) :=
  ("Orders", [(column, "java.lang.String")], [],
    [["Table: " ++ catalog ++ ".orders", "", "@mapper.generated"],
      ["Column: " ++ catalog ++ ".orders." ++ column]])

theorem hasPlainNames_of_twoOrdersParts {table : TableModel} {catalog column : String}
    (h : plainParts table = twoOrdersParts catalog column) (hcolumn : IsIdentifier column.toList)
    (hdocs : ∀ doc ∈ (twoOrdersParts catalog column).2.2.2, ∀ line ∈ doc, '/' ∉ line.toList) :
    table.HasPlainNames :=
  hasPlainNames_of_parts h (by decide)
    (List.forall_mem_singleton.2 ⟨hcolumn, isTypeName_string⟩) hdocs

theorem hasPlainNames_twoOrders :
    ∀ table ∈ ({} : Settings).models twoOrders, table.HasPlainNames := by
  have hmodels : (({} : Settings).models twoOrders).map plainParts =
      [twoOrdersParts "archive" "shipped", twoOrdersParts "sales" "placed"] := by decide +kernel
  obtain ⟨archive, others, hmodels, harchive, hothers⟩ := List.map_eq_cons_iff.1 hmodels
  obtain ⟨sales, rest, rfl, hsales, hrest⟩ := List.map_eq_cons_iff.1 hothers
  cases List.map_eq_nil_iff.1 hrest
  rw [hmodels]
  refine List.forall_mem_cons.2 ⟨?_, List.forall_mem_singleton.2 ?_⟩
  · exact hasPlainNames_of_twoOrdersParts harchive (by decide) (by decide)
  · exact hasPlainNames_of_twoOrdersParts hsales (by decide) (by decide)

/-- The headings of the artifacts of each of the two tables. -/
def twoOrdersHeadings : List (String × BareHeading) :=
  ordersTargets.zip [.unit .class [] [], .unit .class [] [],
    .unit .interface ["com.example.model.Orders", "com.example.query.OrdersQC",
      "java.util.List"] [],
    .document "mapper" (some "com.example.mapper.OrdersMapper")
      ["BaseResultMap", "baseColumn", "qc", "set", "batchSet", "batchSetValue", "tableName", "list",
        "getByQc", "count", "insert", "batchInsert", "update", "batchUpdate"]]

theorem map_target_of_twoOrdersHeadings {artifacts : List Artifact}
    (h : artifacts.map Artifact.parts = twoOrdersHeadings.map fun part => (part.1, some part.2)) :
    artifacts.map (·.target) = ordersTargets := by
  have htargets := congrArg (List.map Prod.fst) h
  simp only [List.map_map, Function.comp_def] at htargets
  exact htargets

/-- **The artifacts of the second table replace those of the first one.** -/
theorem exists_replaces_twoOrders :
    ∃ first second, ({} : Settings).artifacts twoOrders = first ++ second ∧
    first.map (·.target) = ordersTargets ∧ second.map (·.target) = ordersTargets ∧
      List.Forall₂ (·.Replaces ·) second first ∧ ∀ a ∈ first ++ second, a.IsGenerated {} := by
  have hparts : (({} : Settings).artifacts twoOrders).map Artifact.parts =
      (twoOrdersHeadings.map fun part => (part.1, some part.2)) ++
        twoOrdersHeadings.map fun part => (part.1, some part.2) := by decide +kernel
  have hproblems : ({} : Settings).problems = [] := by decide +kernel
  obtain ⟨hgenerated, -⟩ :=
    isGenerated_of_mem_artifacts hproblems hasPlainNames_twoOrders nofun nofun
  obtain ⟨first, second, hartifacts, hfirst, hsecond⟩ := List.map_eq_append_iff.1 hparts
  rw [hartifacts] at hgenerated
  obtain ⟨hgeneratedFirst, hgeneratedSecond⟩ := List.forall_mem_append.1 hgenerated
  exact ⟨first, second, hartifacts, map_target_of_twoOrdersHeadings hfirst,
    map_target_of_twoOrdersHeadings hsecond, Artifact.forall₂_replaces
      (fun hserializable => Bool.noConfusion hserializable) hgeneratedFirst hgeneratedSecond
      hfirst hsecond, hgenerated⟩

/-- What is part of a text is part of its bytes. -/
theorem infix_toByteArray {part text : String} (h : part.toList <:+: text.toList) :
    part.toByteArray.data.toList <:+: text.toByteArray.data.toList := by
  obtain ⟨front, behind, h⟩ := h
  have htext : text = String.ofList front ++ part ++ String.ofList behind := by
    rw [← String.toList_inj]
    simp [← h]
  rw [htext]
  simp

/-- **Of the two tables the first one loses its record**, and the report of the
run has no warning at all. -/
theorem not_hasRecord_twoOrders : ({} : Settings).problems = [] ∧ ({} : Settings).merge = true ∧
    ({} : Settings).dryRun = false ∧ ∃ report tree', (({} : Settings).job twoOrders).Completes {} report tree' ∧
      report.warnings = [] ∧ ∃ table ∈ ({} : Settings).models twoOrders, ¬ ({} : Settings).HasRecord tree' table := by
  have hproblems : ({} : Settings).problems = [] := by decide +kernel
  have hfindings : ({} : Settings).findings twoOrders = [] := by decide +kernel
  obtain ⟨first, second, hartifacts, hfirst, hsecond, hreplaces, hgenerated⟩ :=
    exists_replaces_twoOrders
  obtain ⟨report, tree', hcompletes, hwarnings, hstands⟩ :=
    exists_completes_of_replaces hproblems rfl rfl hartifacts hgenerated hfirst hsecond hreplaces
  -- the first table has the column `shipped`, and its record goes where the first target is
  have htable : (({} : Settings).models twoOrders).head?.map (fun table =>
      ((({} : Settings).bareRecord table).target,
        table.columns.map fun c => (BeanProperty.ofColumn table c).field.declaration)) =
      some ("./generated/java/com/example/model/Orders.java", ["    private String shipped"]) := by
        decide +kernel
  obtain ⟨table, hhead, hparts⟩ := Option.map_eq_some_iff.1 htable
  obtain ⟨htarget, hfields⟩ := Prod.mk.inj hparts
  obtain ⟨c, hcolumns, hdeclaration⟩ := List.map_eq_singleton_iff.1 hfields
  -- but what stands there is the record of the second table, which has no field for it
  have hlacks : ((({} : Settings).artifacts twoOrders).drop 4).head?.all fun b =>
      ¬ "    private String shipped;".toByteArray.data.toList
          <:+: b.render.toByteArray.data.toList := by decide +kernel
  obtain ⟨b, others, rfl, hb, -⟩ := List.map_eq_cons_iff.1 hsecond
  have hlength : first.length = 4 := (List.length_map _).symm.trans (congrArg List.length hfirst)
  rw [hartifacts, ← hlength, List.drop_left] at hlacks
  refine ⟨hproblems, rfl, rfl, report, tree', hcompletes, hwarnings.trans hfindings, table,
    List.mem_of_head? hhead, ?_⟩
  rintro ⟨text, hread, hdeclares⟩
  rw [htarget, ← hb, hstands b List.mem_cons_self] at hread
  cases hread
  rcases hdeclares c (hcolumns ▸ List.mem_singleton_self c) with hfield | ⟨root, hroot, -⟩
  · rw [hdeclaration] at hfield
    exact of_decide_eq_true hlacks (infix_toByteArray hfield)
  · exact nomatch hroot

end Settings

end TableMapper
