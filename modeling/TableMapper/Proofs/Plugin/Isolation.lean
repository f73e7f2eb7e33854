import TableMapper.Proofs.Plugin.Offers

/-!
# Plugins do not disturb each other

A plugin may edit every part of an artifact and veto it. What it does with
one part it does to this part alone: **the same parts are offered in the
same order as without plugins, each as it is made from the table; a plugin
sees a part as the plugins in front of it leave it, and not at all behind a
veto; and a class, an interface or a document is offered with the parts that
were approved before, as they were approved** (`PluginChain.isolated`).

It does not go without saying. Constructors and imports are made from the
fields that are left, so what is offered of a class as a whole depends on
the plugins. But nothing that is offered by itself is made from what is
left.
-/

namespace TableMapper

/-! ## All offers of a table -/

/-- Offers of one kind after another, each list of them with its kind. -/
abbrev OfferRuns := List (Hook.Part × List Hearing)

/-- Of the offers of one kind the others make no difference. -/
theorem OfferRuns.filterMap_flatMap {α : Type} {f : Hearing → Option α} {part : Hook.Part}
    (hf : ∀ h : Hearing, h.hook.part ≠ part → f h = none) {runs : OfferRuns}
    (hruns : ∀ run ∈ runs, ∀ h ∈ run.2, h.hook.part = run.1) {own : List Hearing}
    (hown : runs.filter (·.1 = part) = [(part, own)]) : (runs.flatMap (·.2)).filterMap f
      = own.filterMap f := by
  have hfilter : (runs.flatMap (·.2)).filterMap f
      = ((runs.filter (·.1 = part)).flatMap (·.2)).filterMap f := by
    clear hown
    induction runs with
    | nil => rfl
    | cons run runs ih =>
      obtain ⟨hrun, hruns⟩ := List.forall_mem_cons.1 hruns
      rw [List.flatMap_cons, List.filterMap_append, ih hruns]
      by_cases hpart : run.1 = part
      · rw [List.filter_cons_of_pos (by exact decide_eq_true hpart), List.flatMap_cons,
          List.filterMap_append]
      · have hnone : run.2.filterMap f = [] :=
          List.filterMap_eq_nil_iff.2 fun h hh => hf h fun heq => hpart ((hrun h hh).symm.trans heq)
        rw [List.filter_cons_of_neg (by simpa using hpart), hnone, List.nil_append]
  rw [hfilter, hown, List.flatMap_cons, List.flatMap_nil, List.append_nil]

section

variable (settings : Settings) (plugins : PluginChain) (table : TableModel)

/-- The record with its fields. -/
def Record.withFields : Heard JavaUnit :=
  JavaUnit.addFields plugins table .record (properties settings table) (bare settings table)

/-- The record with constructors and accessors, as it is offered. -/
def Record.withAccessors : Heard JavaUnit :=
  JavaUnit.addAccessors plugins table .record settings.immutable (properties settings table)
    (addConstructors settings (properties settings table) (withFields settings plugins table).value)

/-- The query condition with its fields. -/
def QueryCondition.withFields : Heard JavaUnit :=
  JavaUnit.addFields plugins table .queryCondition (properties settings table) (bare settings table)

/-- The query condition with accessors, as it is offered. -/
def QueryCondition.withAccessors : Heard JavaUnit :=
  JavaUnit.addAccessors plugins table .queryCondition false (properties settings table)
    (withFields settings plugins table).value

/-- The mapper interface with its methods, as it is offered. -/
def MapperInterface.withMethods : Heard JavaUnit :=
  addMethods table plugins (methods table) (bare table)

/-- The root of the mapper document with its fragments. -/
def MapperDocument.withFragments : Heard Markup.Element :=
  addFragments table plugins fragment? FragmentId.all
    ((Markup.Element.named "mapper").attr "namespace" table.names.mapperNamespace)

/-- **The offers of a table**, in their order. -/
def offerRuns : OfferRuns :=
  [(.field .record, (Record.withFields settings plugins table).hearings),
   (.accessor .record, (Record.withAccessors settings plugins table).hearings),
   (.whole, [plugins.hearing (.modelClass .record) table
     (Record.withAccessors settings plugins table).value]),
   (.field .queryCondition, (QueryCondition.withFields settings plugins table).hearings),
   (.accessor .queryCondition, (QueryCondition.withAccessors settings plugins table).hearings),
   (.whole, [plugins.hearing (.modelClass .queryCondition) table
      (QueryCondition.withAccessors settings plugins table).value]),
   (.clientMethod, (MapperInterface.withMethods plugins table).hearings),
   (.whole, [plugins.hearing .clientInterface table
     (MapperInterface.withMethods plugins table).value]),
   (.fragment, (MapperDocument.withFragments plugins table).hearings),
   (.whole, [plugins.hearing .mapperDocument table
      { root := (MapperDocument.withFragments plugins table).value
        publicId := some MapperDocument.publicId
        systemId := some MapperDocument.systemId }])]

theorem hearings_generateTable (generators : List Generator) :
    (generateTable settings plugins table generators).hearings =
      generators.flatMap fun generator => (generator.generate settings plugins table).hearings := by
  induction generators with
  | nil => rfl
  | cons generator rest ih =>
    rw [generateTable, Heard.hearings_bind, Heard.hearings_bind, Heard.hearings_pure,
      List.append_nil, ih, List.flatMap_cons]

theorem hearings_defaults : (generateTable settings plugins table Generator.defaults).hearings =
    (offerRuns settings plugins table).flatMap (·.2) := by
  have hrecord : (Record.generate settings table plugins).hearings =
      (Record.withFields settings plugins table).hearings ++
      ((Record.withAccessors settings plugins table).hearings ++
        [plugins.hearing (.modelClass .record) table
          (Record.withAccessors settings plugins table).value]) := rfl
  have hquery : (QueryCondition.generate settings table plugins).hearings =
      (QueryCondition.withFields settings plugins table).hearings ++
        ((QueryCondition.withAccessors settings plugins table).hearings ++
          [plugins.hearing (.modelClass .queryCondition) table
            (QueryCondition.withAccessors settings plugins table).value]) := rfl
  have hinterface : (MapperInterface.generate settings table plugins).hearings =
      (MapperInterface.withMethods plugins table).hearings ++
        [plugins.hearing .clientInterface table
          (MapperInterface.withMethods plugins table).value] := rfl
  have hdocument : (MapperDocument.generate settings table
      MapperDocument.fragment? plugins).hearings =
      (MapperDocument.withFragments plugins table).hearings ++
        [plugins.hearing .mapperDocument table
          { root := (MapperDocument.withFragments plugins table).value
            publicId := some MapperDocument.publicId
            systemId := some MapperDocument.systemId }] := rfl
  rw [hearings_generateTable]
  show (Record.generate settings table plugins).hearings ++
      ((QueryCondition.generate settings table plugins).hearings ++
        ((MapperInterface.generate settings table plugins).hearings ++
          ((MapperDocument.generate settings table MapperDocument.fragment? plugins).hearings ++
            []))) = _
  rw [hrecord, hquery, hinterface, hdocument]
  simp only [offerRuns, List.flatMap_cons, List.flatMap_nil, List.append_assoc]

/-- What is heard is an offer of some part to the plugins. -/
theorem forall_hearings {P : Hook.Part → Hearing → Prop}
    (hP : ∀ {s : Shape} (hook : Hook s) (part : s.Carrier),
      P hook.part (plugins.hearing hook table part)) :
    ∀ run ∈ offerRuns settings plugins table, ∀ h ∈ run.2, P run.1 h := by
  have haccessors : ∀ (kind : ModelKind) (readOnly : Bool) (ps : List BeanProperty) (u : JavaUnit),
      ∀ h ∈ (JavaUnit.addAccessors plugins table kind readOnly ps u).hearings,
      P (.accessor kind) h := by
    intro kind readOnly ps u h hh
    rw [JavaUnit.hearings_addAccessors] at hh
    obtain ⟨p, -, hh⟩ := List.mem_flatMap.1 hh
    rcases List.mem_cons.1 hh with rfl | hh
    · exact hP (.modelGetter kind p.column) p.getter
    · cases readOnly with
      | true => exact absurd hh List.not_mem_nil
      | false =>
        rw [List.mem_singleton.1 hh]
        exact hP (.modelSetter kind p.column) p.setter
  have hfields : ∀ (kind : ModelKind) (ps : List BeanProperty) (u : JavaUnit),
      ∀ h ∈ (JavaUnit.addFields plugins table kind ps u).hearings, P (.field kind) h := by
    intro kind ps u
    rw [JavaUnit.hearings_addFields, List.forall_mem_map]
    exact fun p _ => hP (.modelField kind p.column) p.field
  have hmethods : ∀ h ∈ (MapperInterface.withMethods plugins table).hearings,
      P .clientMethod h := by
    rw [MapperInterface.withMethods, MapperInterface.hearings_addMethods, List.forall_mem_map]
    exact fun m _ => hP (.clientMethod m.1) m.2
  have hfragments : ∀ h ∈ (MapperDocument.withFragments plugins table).hearings, P .fragment h := by
    intro h hh
    rw [MapperDocument.withFragments, MapperDocument.hearings_addFragments] at hh
    obtain ⟨id, -, hid⟩ := List.mem_filterMap.1 hh
    obtain ⟨element, -, rfl⟩ := Option.map_eq_some_iff.1 hid
    exact hP (.mapperElement id) element
  simp only [offerRuns, List.forall_mem_cons, List.not_mem_nil, false_implies,
    implies_true, and_true]
  exact ⟨hfields _ _ _, haccessors _ _ _ _, hP (.modelClass .record) _, hfields _ _ _,
    haccessors _ _ _ _, hP (.modelClass .queryCondition) _, hmethods, hP .clientInterface _,
    hfragments, hP .mapperDocument _⟩

theorem part_of_mem_offerRuns :
    ∀ run ∈ offerRuns settings plugins table, ∀ h ∈ run.2, h.hook.part = run.1 :=
  forall_hearings settings plugins table (P := fun part h => h.hook.part = part) fun _ _ => rfl

/-- The offers of wholes are one for each artifact. -/
theorem whole_cases {h : Hearing} (hmem : h ∈ (offerRuns settings plugins table).flatMap (·.2))
    (hwhole : h.hook.part = .whole) :
    h = plugins.hearing (.modelClass .record) table
      (Record.withAccessors settings plugins table).value ∨
      h = plugins.hearing (.modelClass .queryCondition) table
        (QueryCondition.withAccessors settings plugins table).value ∨
      h = plugins.hearing .clientInterface table (MapperInterface.withMethods plugins table).value ∨
      ∃ document : Markup.Document,
      document.root = (MapperDocument.withFragments plugins table).value ∧
        h = plugins.hearing .mapperDocument table document := by
  obtain ⟨run, hrun, hh⟩ := List.mem_flatMap.1 hmem
  have hpart : run.1 = .whole :=
    (part_of_mem_offerRuns settings plugins table run hrun h hh).symm.trans hwhole
  have hmem : run ∈ (offerRuns settings plugins table).filter (·.1 = .whole) :=
    List.mem_filter.2 ⟨hrun, decide_eq_true hpart⟩
  -- four runs are left when the list is filtered, with one offer each
  have hwholes : h ∈ [_, _, _, _] := List.mem_flatMap.2 ⟨run, hmem, hh⟩
  simp only [List.mem_cons, List.not_mem_nil, or_false] at hwholes
  exact hwholes.imp_right (Or.imp_right (Or.imp_right fun heq => ⟨_, rfl, heq⟩))

/-- **The offers open as without plugins.** -/
theorem map_opening_offerRuns :
    ((offerRuns settings plugins table).flatMap (·.2)).map Hearing.opening =
    ((offerRuns settings [] table).flatMap (·.2)).map Hearing.opening := by
  have haccessors : ∀ (kind : ModelKind) (readOnly : Bool)
      (ps : List BeanProperty) (u v : JavaUnit),
      (JavaUnit.addAccessors plugins table kind readOnly ps u).hearings.map Hearing.opening =
        (JavaUnit.addAccessors [] table kind readOnly ps v).hearings.map Hearing.opening := by
    intro kind readOnly ps u v
    rw [JavaUnit.hearings_addAccessors, JavaUnit.hearings_addAccessors,
      List.map_flatMap, List.map_flatMap]
    cases readOnly <;> rfl
  have hfields : ∀ (kind : ModelKind) (ps : List BeanProperty) (u v : JavaUnit),
      (JavaUnit.addFields plugins table kind ps u).hearings.map Hearing.opening =
        (JavaUnit.addFields [] table kind ps v).hearings.map Hearing.opening := by
    intro kind ps u v
    rw [JavaUnit.hearings_addFields, JavaUnit.hearings_addFields, List.map_map, List.map_map]
    rfl
  have hmethods : (MapperInterface.withMethods plugins table).hearings.map Hearing.opening =
      (MapperInterface.withMethods [] table).hearings.map Hearing.opening := by
    rw [MapperInterface.withMethods, MapperInterface.withMethods,
      MapperInterface.hearings_addMethods, MapperInterface.hearings_addMethods,
      List.map_map, List.map_map]
    rfl
  have hfragments : (MapperDocument.withFragments plugins table).hearings.map Hearing.opening =
      (MapperDocument.withFragments [] table).hearings.map Hearing.opening := by
    rw [MapperDocument.withFragments, MapperDocument.withFragments,
      MapperDocument.hearings_addFragments, MapperDocument.hearings_addFragments,
      List.map_filterMap, List.map_filterMap]
    simp only [Option.map_map]
    rfl
  simp only [offerRuns, List.flatMap_cons, List.flatMap_nil, List.map_append, List.append_nil]
  have hrecord : (Record.withFields settings plugins table).hearings.map Hearing.opening =
      (Record.withFields settings [] table).hearings.map Hearing.opening := hfields _ _ _ _
  have hrecordAccessors :
      (Record.withAccessors settings plugins table).hearings.map Hearing.opening =
      (Record.withAccessors settings [] table).hearings.map Hearing.opening := haccessors _ _ _ _ _
  have hquery : (QueryCondition.withFields settings plugins table).hearings.map Hearing.opening =
      (QueryCondition.withFields settings [] table).hearings.map Hearing.opening := hfields _ _ _ _
  have hqueryAccessors :
      (QueryCondition.withAccessors settings plugins table).hearings.map Hearing.opening =
      (QueryCondition.withAccessors settings [] table).hearings.map Hearing.opening :=
    haccessors _ _ _ _ _
  rw [hrecord, hrecordAccessors, hquery, hqueryAccessors, hmethods, hfragments]
  rfl

/-! ## Wholes -/

/-- The fields a class has beside those of properties: the version of a
serializable record. -/
def ownFields : ModelKind → List Field
  | .record => if settings.serializable then [Record.versionField] else []
  | .queryCondition => []

/-- The methods a class has beside accessors: the constructors of a record. -/
def ownMethods (u : JavaUnit) : ModelKind → List Method
  | .record =>
    if settings.hasConstructor then
      Record.fullConstructor u (Record.properties settings table) ::
        if settings.immutable then [] else [Record.emptyConstructor u]
    else []
  | .queryCondition => []

/-- **What is offered as a whole holds what was approved**: its parts are
those that some offers left, in the order of the offers. -/
def Hearing.Gathers (all : List Hearing) : Hearing → Prop
  | ⟨.modelClass kind, unit, _, _⟩ =>
    unit.fields = ownFields settings kind ++ all.filterMap (·.field? kind) ∧
      unit.methods = ownMethods settings table unit kind ++ all.filterMap (·.accessor? kind)
  | ⟨.clientInterface, unit, _, _⟩ =>
    unit.fields = [] ∧ unit.methods = all.filterMap (·.clientMethod?)
  | ⟨.mapperDocument, document, _, _⟩ =>
    document.root.children = (all.filterMap (·.fragment?)).map (·.toNode)
  | _ => True

theorem Hearing.gathers_of_part {all : List Hearing} {h : Hearing} (hpart : h.hook.part ≠ .whole) :
    h.Gathers settings table all := by
  obtain ⟨hook, offered, seen, outcome⟩ := h
  cases hook
  case modelClass => exact absurd rfl hpart
  case clientInterface => exact absurd rfl hpart
  case mapperDocument => exact absurd rfl hpart
  all_goals exact trivial

variable {settings table} in
/-- Accessors make no difference to the constructors. -/
theorem JavaUnit.AddsMembers.ownMethods_eq {u v : JavaUnit} {ms : List Method}
    (h : AddsMembers u v [] ms)
    (kind : ModelKind) : ownMethods settings table v kind = ownMethods settings table u kind := by
  obtain ⟨imports, rfl⟩ := h
  rw [List.append_nil]
  cases kind <;> rfl

section

variable {settings plugins table} {all : List Hearing}

/-- **The record holds the approved fields and accessors.** -/
theorem Record.gathers_withAccessors
    (hfields : all.filterMap (·.field? .record) =
      (withFields settings plugins table).hearings.filterMap (·.field? .record))
    (haccessors : all.filterMap (·.accessor? .record) =
      (withAccessors settings plugins table).hearings.filterMap (·.accessor? .record)) :
    (plugins.hearing (.modelClass .record) table
      (withAccessors settings plugins table).value).Gathers
      settings table all := by
  obtain ⟨hbare, hnone⟩ : (bare settings table).fields = ownFields settings .record ∧ _ :=
    members_bare settings table
  have hfirst : JavaUnit.AddsMembers (bare settings table)
      (withFields settings plugins table).value _ [] :=
    JavaUnit.addsMembers_addFields plugins table .record
      (properties settings table) (bare settings table)
  have hlast : JavaUnit.AddsMembers _ (withAccessors settings plugins table).value [] _ :=
    JavaUnit.addsMembers_addAccessors plugins table .record settings.immutable
      (properties settings table)
      (addConstructors settings (properties settings table)
        (withFields settings plugins table).value)
  -- the constructors are those for the class as it is offered
  have hconstructors : (addConstructors settings (properties settings table)
      (withFields settings plugins table).value).methods =
        ownMethods settings table (withAccessors settings plugins table).value .record := by
    rw [hlast.ownMethods_eq .record, addConstructors_eq]
    show (withFields settings plugins table).value.methods ++ _ = _
    rw [hfirst.methods_eq, hnone]
    rfl
  refine ⟨?_, ?_⟩
  · rw [hlast.fields_eq, fields_addConstructors, List.append_nil, hfirst.fields_eq, hbare, hfields]
    rfl
  · rw [hlast.methods_eq, hconstructors, haccessors]
    rfl

theorem QueryCondition.gathers_withAccessors
    (hfields : all.filterMap (·.field? .queryCondition) =
      (withFields settings plugins table).hearings.filterMap (·.field? .queryCondition))
    (haccessors : all.filterMap (·.accessor? .queryCondition) =
      (withAccessors settings plugins table).hearings.filterMap (·.accessor? .queryCondition)) :
    (plugins.hearing (.modelClass .queryCondition) table
      (withAccessors settings plugins table).value).Gathers
      settings table all := by
  have hfirst : JavaUnit.AddsMembers (bare settings table)
      (withFields settings plugins table).value _ [] :=
    JavaUnit.addsMembers_addFields plugins table .queryCondition
      (properties settings table) (bare settings table)
  have hlast : JavaUnit.AddsMembers _ (withAccessors settings plugins table).value [] _ :=
    JavaUnit.addsMembers_addAccessors plugins table .queryCondition false
      (properties settings table)
      (withFields settings plugins table).value
  have hnone : (bare settings table).methods = [] := by
    rw [bare]
    cases settings.queryRoot <;> rfl
  refine ⟨?_, ?_⟩
  · rw [hlast.fields_eq, List.append_nil, hfirst.fields_eq, (bare_eq settings table).1, hfields]
    rfl
  · rw [hlast.methods_eq, hfirst.methods_eq, hnone, haccessors]
    rfl

theorem MapperInterface.gathers_withMethods
    (hmethods : all.filterMap (·.clientMethod?) =
      (withMethods plugins table).hearings.filterMap (·.clientMethod?)) :
    (plugins.hearing .clientInterface table (withMethods plugins table).value).Gathers
    settings table all := by
  have hadds : JavaUnit.AddsMembers (bare table) (withMethods plugins table).value [] _ :=
    addsMembers_addMethods plugins table (methods table) (bare table)
  refine ⟨hadds.fields_eq, ?_⟩
  rw [hadds.methods_eq, hmethods]
  rfl

theorem MapperDocument.gathers_withFragments
    (hfragments : all.filterMap (·.fragment?) =
      (withFragments plugins table).hearings.filterMap (·.fragment?)) (document : Markup.Document)
    (hroot : document.root = (withFragments plugins table).value) :
    (plugins.hearing .mapperDocument table document).Gathers settings table all := by
  show document.root.children = _
  rw [hroot, hfragments]
  exact children_addFragments plugins table fragment? FragmentId.all _

end

/-! ## All plugins of a run -/

/-- **An offer is fair**: every plugin sees the part as the plugins in front
of it leave it, and all of them decide. -/
structure Hearing.IsFair (h : Hearing) : Prop where
  seen : ∀ i, h.seen[i]? =
    if i < plugins.length then PluginChain.edit h.hook table (plugins.take i) h.offered else none
  outcome : h.outcome = plugins.edit h.hook table h.offered

/-- **The plugins do not disturb each other.** -/
structure PluginChain.Isolated : Prop where
  /-- The offers are those made without plugins, and of the same parts. -/
  opening : (generateTable settings plugins table Generator.defaults).hearings.map Hearing.opening =
    (generateTable settings [] table Generator.defaults).hearings.map Hearing.opening
  /-- A veto hides a part from the plugins behind it and from no other. -/
  fair : ∀ h ∈ (generateTable settings plugins table Generator.defaults).hearings,
    h.IsFair plugins table
  /-- What is offered as a whole holds the approved parts. -/
  gathers : ∀ h ∈ (generateTable settings plugins table Generator.defaults).hearings,
    h.Gathers settings table (generateTable settings plugins table Generator.defaults).hearings

/-- **Whatever the plugins answer, they do not disturb each other.** -/
theorem PluginChain.isolated : Isolated settings plugins table := by
  have hparts := part_of_mem_offerRuns settings plugins table
  refine ⟨?_, ?_, ?_⟩
  case refine_1 =>
    rw [hearings_defaults, hearings_defaults]
    exact map_opening_offerRuns settings plugins table
  case refine_2 =>
    intro h hh
    rw [hearings_defaults] at hh
    obtain ⟨run, hrun, hh⟩ := List.mem_flatMap.1 hh
    refine forall_hearings settings plugins table
      (P := fun _ h => h.IsFair plugins table) ?_ run hrun h hh
    exact fun hook part =>
      ⟨getElem?_fst_ask hook table plugins part, snd_ask hook table plugins part⟩
  case refine_3 =>
    intro h hh
    rw [hearings_defaults] at hh ⊢
    -- a part holds nothing; of the four wholes each holds what was approved in the runs in front of
    -- it
    by_cases hwhole : h.hook.part = .whole
    · obtain rfl | rfl | rfl | ⟨document, hroot, rfl⟩ :=
        whole_cases settings plugins table hh hwhole
      · exact Record.gathers_withAccessors
          (OfferRuns.filterMap_flatMap (fun _ => Hearing.field?_eq_none) hparts rfl)
          (OfferRuns.filterMap_flatMap (fun _ => Hearing.accessor?_eq_none) hparts rfl)
      · exact QueryCondition.gathers_withAccessors
          (OfferRuns.filterMap_flatMap (fun _ => Hearing.field?_eq_none) hparts rfl)
          (OfferRuns.filterMap_flatMap (fun _ => Hearing.accessor?_eq_none) hparts rfl)
      · exact MapperInterface.gathers_withMethods
          (OfferRuns.filterMap_flatMap (fun _ => Hearing.clientMethod?_eq_none) hparts rfl)
      · exact MapperDocument.gathers_withFragments
          (OfferRuns.filterMap_flatMap (fun _ => Hearing.fragment?_eq_none) hparts rfl)
            document hroot
    · exact Hearing.gathers_of_part settings table hwhole

end

end TableMapper
