import TableMapper.Artifact.Generator
import TableMapper.Proofs.Artifact.GeneratedDocument
import TableMapper.Proofs.Artifact.WellFormedUnits
import TableMapper.Proofs.Merge.OwnText
import TableMapper.Proofs.Run.WrittenTwice
import TableMapper.Proofs.Unit.Names

/-!
# The artifacts of a table

The artifacts of a table with plain names are three well-formed units and a
generated document, whichever of the plugins the configuration can name are
at work (`isGenerated_of_mem_generateTable`). A document can always be merged
into its own text. **A unit can be, unless its superclass runs into the word
that introduces its interfaces** (`Artifact.IsGenerated.mergeInto_render`),
and only records have both.
-/

namespace TableMapper

/-!
## The places of artifacts

An artifact whose file has a proper name goes to this name in the place of
its directory. **Artifacts of one project with different targets go to
different places** (`Artifact.target_eq_of_place_eq`), for what stands
between the project and the file is the package, name by name.
-/

/-! ### Names of files -/

namespace Path

theorem isName_append {front ending : String} (hfront : '/' ∉ front.toList)
    (hending : '/' ∉ ending.toList)
    (h : ∃ stem c, ending.toList = stem ++ [c] ∧ c ≠ '.') : IsName (front ++ ending) where
  slash := by
    rw [String.toList_append, List.mem_append]
    exact fun hmem => hmem.elim hfront hending
  ended := by
    obtain ⟨stem, c, hstem, hc⟩ := h
    exact ⟨front.toList ++ stem, c, by rw [String.toList_append, hstem, List.append_assoc], hc⟩

theorem isName_of_not_mem {name : String} (hne : name ≠ "") (hslash : '/' ∉ name.toList)
    (hdot : '.' ∉ name.toList) :
    IsName name where
  slash := hslash
  ended := by
    have hne' : name.toList ≠ [] := by simpa using hne
    refine ⟨_, _, (List.dropLast_concat_getLast hne').symm, fun heq => hdot ?_⟩
    exact heq ▸ List.getLast_mem hne'

end Path

theorem IsIdentifier.not_mem_slash {name : List Char} (h : IsIdentifier name) : '/' ∉ name :=
  fun hmem => absurd (h.isNameChar '/' hmem) (by decide)

/-! ### Artifacts -/

namespace Artifact

variable {a b : Artifact}

/-- The names of the directories of the package. -/
def packageNames (a : Artifact) : List String :=
  (Text.splitAt '.' a.package).filter (!·.isEmpty)

theorem isName_of_mem_packageNames (h : '/' ∉ a.package.toList) :
    ∀ name ∈ a.packageNames, Path.IsName name := by
  intro name hname
  obtain ⟨hmem, hne⟩ := List.mem_filter.1 hname
  obtain ⟨piece, hpiece, rfl⟩ := List.mem_map.1 hmem
  refine Path.isName_of_not_mem (by simpa using hne) (fun hslash => h ?_) (fun hdot => ?_)
  · rw [String.toList_ofList] at hslash
    exact (Text.mem_of_mem_piece hpiece hslash).1
  · rw [String.toList_ofList] at hdot
    exact absurd (Text.mem_of_mem_piece hpiece hdot).2 (by simp)

theorem endsWith_target (h : Path.IsName a.fileName) : Path.EndsWith a.target a.fileName :=
  (Path.endsWith_join h _).join _

/-- Whatever its name, an artifact can go to a file if the name ends neither
with a slash nor with a dot. -/
theorem namesFile_target (h : ∃ stem c, a.fileName.toList = stem ++ [c] ∧ c ≠ '/' ∧ c ≠ '.') :
    Path.NamesFile a.target := by
  obtain ⟨name, hname, hends⟩ := Path.exists_endsWith h
  exact ((hends.join _).join _).namesFile hname

/-- **An artifact goes to the name of its file** in the place of its
directory. -/
theorem place_eq (h : Path.IsName a.fileName) : a.place = a.directory ++ [a.fileName] :=
  (endsWith_target h).location_eq h

/-- The place of an artifact whose package is made of names. -/
theorem place_eq_of_packageNames (h : Path.IsName a.fileName)
    (hnames : ∀ name ∈ a.packageNames, Path.IsName name) :
    a.place = Path.location a.project ++ (a.packageNames ++ [a.fileName]) := by
  obtain ⟨habsolute, hparts⟩ := Path.parts_joinAll hnames
  have hrelative : Path.isAbsolute a.relativePath = false := by
    rw [relativePath, Path.isAbsolute_join h.not_absolute]
    exact habsolute
  rw [place, target, Path.location_join hrelative, relativePath,
    Path.parts_join h.not_absolute, h.parts]
  show (Path.parts (Path.joinAll a.packageNames) ++ [a.fileName]).foldl Path.step _ = _
  rw [hparts, Path.foldl_step]
  exact List.forall_mem_append.2 ⟨hnames, List.forall_mem_singleton.2 h⟩

/-- **Artifacts of one project that go to the same place have the same
target.** -/
theorem target_eq_of_place_eq (ha : Path.IsName a.fileName) (hb : Path.IsName b.fileName)
    (hproject : a.project = b.project)
    (hpackage : a.package = b.package ∨
      (∀ name ∈ a.packageNames, Path.IsName name) ∧ ∀ name ∈ b.packageNames, Path.IsName name)
    (h : a.place = b.place) : a.target = b.target := by
  have htarget : ∀ c : Artifact,
      c.target = Path.join c.project (Path.join (Path.joinAll c.packageNames) c.fileName) :=
    fun _ => rfl
  have hname : a.fileName = b.fileName := by
    rw [place_eq ha, place_eq hb] at h
    exact (List.append_inj' h rfl).2 |> List.cons.inj |>.1
  rcases hpackage with hpackage | ⟨hnames, hnames'⟩
  · rw [htarget, htarget, hproject, hname, packageNames, packageNames, hpackage]
  · rw [place_eq_of_packageNames ha hnames, place_eq_of_packageNames hb hnames',
      hproject, hname] at h
    have heq : a.packageNames = b.packageNames :=
      List.append_cancel_right (List.append_cancel_left h)
    rw [htarget, htarget, hproject, hname, heq]

end Artifact

/-! ## Classes that are no arrays -/

namespace JavaType

variable {t : JavaType}

theorem shortName_class {package object : String} (hobject : IsIdentifier object.toList) :
    (named (package ++ "." ++ object)).shortName = object := by
  show (splitName _).2 = object
  rw [splitName_class hobject]

theorem IsClass.not_isArray {u : JavaUnit} (h : u.type.IsClass) : ¬ u.IsArray := by
  obtain ⟨package, object, htype, -, hobject⟩ := h
  rw [JavaUnit.IsArray, htype, shortName_class hobject]
  intro hlast
  exact absurd (hobject.isNameChar ']' (List.mem_of_getLast? hlast)) (by decide)

end JavaType

/-! ## Superclasses of records -/

/-- **The superclass of the records can be read back**: in front of the
interface of a serializable record it does not end with the word that
introduces interfaces. -/
def Settings.RootLegible (settings : Settings) : Prop :=
  settings.serializable = true → ∀ root ∈ settings.recordRoot,
    ¬ "implements".toList <:+ (JavaType.named root.typeName).shortName.toList

variable {settings : Settings} {table : TableModel}

theorem Record.superclassLegible_iff {record : JavaUnit} (htype : record.type.IsClass)
    (hsuper : record.superclass = superclass? settings)
    (hinterfaces : record.superInterfaces = superInterfaces settings) :
    record.SuperclassLegible ↔ settings.RootLegible := by
  have hne : record.superInterfaces ≠ [] ↔ settings.serializable = true := by
    rw [hinterfaces, superInterfaces]
    cases settings.serializable <;> simp
  rw [JavaUnit.SuperclassLegible, Settings.RootLegible, hsuper, superclass?]
  constructor
  · intro h hserializable root hroot
    exact (h _ (Option.mem_map_of_mem _ hroot)).2 (hne.2 hserializable)
  · intro h t ht
    obtain ⟨root, hroot, rfl⟩ := Option.mem_map.1 ht
    exact ⟨htype.not_isArray, fun hsome => h (hne.1 hsome) root hroot⟩

theorem JavaUnit.superclassLegible_of_nil {u : JavaUnit} (htype : u.type.IsClass)
    (h : u.superInterfaces = []) :
    u.SuperclassLegible :=
  fun _ _ => ⟨htype.not_isArray, fun hne => absurd h hne⟩

/-! ## Artifacts as they are generated -/

/-- **An artifact as it is generated**: a well-formed unit of a class, or a
generated document. -/
inductive Artifact.IsGenerated (settings : Settings) : Artifact → Prop
  | java (kind : ArtifactKind) {unit : JavaUnit} (wellFormed : unit.WellFormed)
      (type : unit.type.IsClass)
      (retained : unit.retained = []) (legible : settings.RootLegible → unit.SuperclassLegible) :
      IsGenerated settings (.ofUnit kind settings.targetProject unit)
  | markup {object : String} {document : Markup.Document} (name : IsIdentifier object.toList)
      (generated : document.Generated) :
      IsGenerated settings (.ofDocument settings.mapperProject settings.mapperPackage
        (object ++ ArtifactNames.mapperSuffix ++ ".xml") document)

/-- **Two artifacts with the same heading**, as far as a merge looks at it. -/
def Artifact.SameHeading (fresh a : Artifact) : Prop :=
  match fresh.body, a.body with
  | .java u, .java v => u.SameHeading v
  | .markup d, .markup e => d.SameRoot e
  | _, _ => False

theorem Artifact.SameHeading.refl (a : Artifact) : a.SameHeading a := by
  rw [SameHeading]
  cases a.body with
  | java u => exact .refl u
  | markup d => exact .refl d

namespace Artifact.IsGenerated

variable {a b : Artifact}

/-- What merging an artifact into its own text gives is this text. -/
theorem eq_render (h : a.IsGenerated settings) {text : String}
    (hmerge : a.mergeInto a.render = .ok text) :
    text = a.render := by
  cases h with
  | java kind wellFormed type retained legible =>
    exact ((wellFormed.mergeInto_render_iff retained).1 hmerge).2
  | markup _ generated => exact Except.ok.inj (hmerge.symm.trans generated.mergeInto_render)

/-- **An artifact replaces one with the same heading**, if the superclass of
the records can be read back. -/
theorem mergeInto_render_of_sameHeading (ha : a.IsGenerated settings) (hb : b.IsGenerated settings)
    (hroot : settings.RootLegible) (hsame : b.SameHeading a) :
    b.mergeInto a.render = .ok b.render := by
  cases ha with
  | @java kind unit wellFormed type retained legible =>
    cases hb with
    | @java kind' unit' wellFormed' type' retained' legible' =>
      have hunits : unit'.SameHeading unit := hsame
      show unit'.mergeInto unit.render = .ok unit'.render
      exact wellFormed'.mergeInto_render_of_sameHeading wellFormed hunits retained' retained
        (legible hroot)
    | markup _ _ => exact False.elim hsame
  | @markup object document _ generated =>
    cases hb with
    | java _ _ _ _ _ => exact False.elim hsame
    | @markup object' document' _ _ =>
      have hroots : document'.SameRoot document := hsame
      show document'.mergeInto document.render = .ok document'.render
      exact generated.mergeInto_render_of_sameRoot hroots

/-- **An artifact can be merged into its own text**, if the superclass of the
records can be read back. -/
theorem mergeInto_render (h : a.IsGenerated settings) (hroot : settings.RootLegible) :
    a.mergeInto a.render = .ok a.render :=
  h.mergeInto_render_of_sameHeading h hroot (.refl a)

theorem isName_fileName (h : a.IsGenerated settings) : Path.IsName a.fileName := by
  cases h with
  | @java kind unit _ type _ _ =>
    obtain ⟨package, object, htype, -, hobject⟩ := type
    show Path.IsName (unit.type.shortName ++ ".java")
    rw [htype, JavaType.shortName_class hobject]
    exact Path.isName_append hobject.not_mem_slash (by decide)
      ⟨".jav".toList, 'a', by decide, by decide⟩
  | @markup object _ hobject _ =>
    show Path.IsName (object ++ ArtifactNames.mapperSuffix ++ ".xml")
    refine Path.isName_append ?_ (by decide) ⟨".xm".toList, 'l', by decide, by decide⟩
    rw [String.toList_append, List.mem_append]
    exact fun hmem => hmem.elim hobject.not_mem_slash (by decide)

theorem namesFile_target (h : a.IsGenerated settings) : Path.NamesFile a.target :=
  (Artifact.endsWith_target h.isName_fileName).namesFile h.isName_fileName

/-- **Different targets are different places.** -/
theorem target_eq_of_place_eq (ha : a.IsGenerated settings) (hb : b.IsGenerated settings)
    (h : a.place = b.place) :
    a.target = b.target := by
  have hfile := ha.isName_fileName
  have hfile' := hb.isName_fileName
  have hname : a.fileName = b.fileName := by
    rw [Artifact.place_eq hfile, Artifact.place_eq hfile'] at h
    exact (List.cons.inj (List.append_inj' h rfl).2).1
  have hnames : ∀ {kind : ArtifactKind} {unit : JavaUnit}, unit.type.IsClass →
      ∀ name ∈ (Artifact.ofUnit kind settings.targetProject unit).packageNames,
      Path.IsName name := by
    rintro kind unit ⟨package, object, htype, hpackage, hobject⟩
    refine Artifact.isName_of_mem_packageNames ?_
    show '/' ∉ ((JavaType.splitName unit.type.qualifiedName).1.getD "").toList
    rw [htype, JavaType.qualifiedName_named, JavaType.splitName_class hobject]
    exact hpackage.not_mem (by decide) (by decide)
  -- units and documents end differently, so only two of a kind can share a place
  have hendings : ∀ front other : String, front ++ ".java" ≠ other ++ ".xml" := by
    intro front other heq
    have hlast := congrArg (fun name : String => name.toList.getLast?) heq
    simp at hlast
  cases ha with
  | java kind _ type _ _ =>
    cases hb with
    | java kind' _ type' _ _ =>
      exact Artifact.target_eq_of_place_eq hfile hfile' rfl (.inr ⟨hnames type, hnames type'⟩) h
    | markup _ _ => exact absurd hname (hendings _ _)
  | markup _ _ =>
    cases hb with
    | java kind' _ type' _ _ => exact absurd hname.symm (hendings _ _)
    | markup _ _ =>
      exact Artifact.target_eq_of_place_eq hfile hfile' rfl (.inl rfl) h

end Artifact.IsGenerated

/-! ## The artifacts of a table -/

theorem value_generateTable_cons (plugins : PluginChain) (generator : Generator)
    (rest : List Generator) :
    (generateTable settings plugins table (generator :: rest)).value =
      (generator.generate settings plugins table).value ++
      (generateTable settings plugins table rest).value := rfl

/-- **The artifacts of a table with plain names** are generated; one of them
is the record, which can be merged into its own text exactly if its
superclass can be read back. -/
theorem isGenerated_of_mem_generateTable (named : List BuiltinPlugin) (h : table.IsPlain)
    (hobject : IsIdentifier table.names.domainObject.toList)
    (hfile : table.names.mapperFile = table.names.domainObject ++
      ArtifactNames.mapperSuffix ++ ".xml")
    (hrecord : ∀ root ∈ settings.recordRoot, IsTypeName root.typeName.toList)
    (hquery : ∀ root ∈ settings.queryRoot, IsTypeName root.toList) :
    (∀ a ∈ (generateTable settings (named.map Plugin.builtin) table Generator.defaults).value,
      a.IsGenerated settings) ∧
      ∃ a ∈ (generateTable settings (named.map Plugin.builtin) table Generator.defaults).value,
        a.mergeInto a.render = .ok a.render → settings.RootLegible := by
  -- no built-in plugin vetoes an artifact, so each generator gives exactly one
  obtain ⟨record, hrecords, hwell, htype, hsuper, hinterfaces, hretained⟩ :=
    Record.exists_generate_builtin named h hrecord
  obtain ⟨query, hqueries, hwell', htype', hinterfaces', hretained'⟩ :=
    QueryCondition.exists_generate_builtin named h hquery
  obtain ⟨mapper, hmappers, hwell'', htype'', hinterfaces'', hretained''⟩ :=
    @MapperInterface.exists_generate_builtin settings table named h
  have hclass : record.type.IsClass := htype ▸ h.recordType
  have hlegible := Record.superclassLegible_iff hclass hsuper hinterfaces
  rw [value_generateTable_of_units hrecords hqueries hmappers]
  refine ⟨?_, _, List.mem_cons_self,
    fun hmerge => hlegible.1 ((hwell.mergeInto_render_iff hretained).1 hmerge).1⟩
  have hclass' : query.type.IsClass := htype' ▸ h.queryType
  have hclass'' : mapper.type.IsClass := htype'' ▸ h.mapperType
  simp only [List.forall_mem_cons]
  refine ⟨.java _ hwell hclass hretained hlegible.2,
    .java _ hwell' hclass' hretained' fun _ =>
    JavaUnit.superclassLegible_of_nil hclass' hinterfaces', .java _ hwell'' hclass'' hretained''
      fun _ => JavaUnit.superclassLegible_of_nil hclass'' hinterfaces'', ?_,
    List.forall_mem_nil _⟩
  rw [hfile]
  exact .markup hobject (MapperDocument.generated_document table)

end TableMapper
