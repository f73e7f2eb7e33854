import TableMapper.Artifact.Generator

/-!
# The mapper document of a table

**With plugins that leave mapper documents as they are the document holds
the fragments that the rules of the table ask for, in document order, and
each is found by its id** (`value_generate`, `elementById?_document`). The
plugins the configuration can name are such plugins.
-/

namespace TableMapper

/-! ## Elements built part by part -/

namespace Markup.Element

variable (e inner : Element) (name value s : String)

@[simp] theorem name_attr : (e.attr name value).name = e.name := rfl

@[simp] theorem attributes_attr :
    (e.attr name value).attributes = e.attributes ++ [(name, value)] := rfl

@[simp] theorem children_attr : (e.attr name value).children = e.children := rfl

@[simp] theorem name_child : (e.child inner).name = e.name := rfl

@[simp] theorem attributes_child : (e.child inner).attributes = e.attributes := rfl

@[simp] theorem children_child : (e.child inner).children = e.children ++ [inner.toNode] := rfl

@[simp] theorem name_text : (e.text s).name = e.name := rfl

@[simp] theorem attributes_text : (e.text s).attributes = e.attributes := rfl

@[simp] theorem children_text : (e.text s).children = e.children ++ [.text s] := rfl

@[simp] theorem name_named : (Element.named name).name = name := rfl

@[simp] theorem attributes_named : (Element.named name).attributes = [] := rfl

@[simp] theorem children_named : (Element.named name).children = [] := rfl

/-- Children added one after another. -/
theorem foldl_child (inners : List Element) (e : Element) :
    inners.foldl (·.child ·) e = { e with children := e.children ++ inners.map toNode } := by
  induction inners generalizing e with
  | nil => simp
  | cons inner inners ih => simp [ih]

/-- The elements among children that were added as elements. -/
theorem filterMap_element?_toNode (inners : List Element) :
    (inners.map toNode).filterMap (·.element?) = inners := by
  induction inners with
  | nil => rfl
  | cons inner inners ih => simp [ih]

end Markup.Element

/-! ## Plugins that leave a part alone -/

/-- Every plugin hands back what it is offered at a place. -/
def PluginChain.Passes (plugins : PluginChain) {s : Shape} (hook : Hook s) : Prop :=
  ∀ plugin ∈ plugins, ∀ (table : TableModel) (part : s.Carrier),
    plugin.judge hook table part = some part

namespace PluginChain

variable {plugins : PluginChain} {s : Shape} {hook : Hook s}

theorem Passes.nil : Passes [] hook :=
  fun _ h => absurd h List.not_mem_nil

theorem Passes.value_offer (h : plugins.Passes hook) (table : TableModel) (part : s.Carrier) :
    (plugins.offer table hook part).value = some part := by
  have hask : (plugins.ask hook table part).2 = some part := by
    induction plugins with
    | nil => rfl
    | cons plugin rest ih =>
      obtain ⟨hfirst, hrest⟩ := List.forall_mem_cons.1 h
      rw [ask, hfirst]
      exact ih hrest
  exact hask

/-- The plugins the configuration can name leave mapper documents as they
are. -/
theorem passes_builtin (named : List BuiltinPlugin) {s : Shape} (hook : Hook s)
    (hhook : ∀ (p : BuiltinPlugin) (part : s.Carrier), p.judge hook part = some part) :
    Passes (named.map Plugin.builtin) hook := by
  intro plugin hplugin table part
  obtain ⟨p, -, rfl⟩ := List.mem_map.1 hplugin
  exact hhook p part

theorem passes_mapperElement (named : List BuiltinPlugin) (id : FragmentId) :
    Passes (named.map Plugin.builtin) (.mapperElement id) :=
  passes_builtin named _ fun p _ => by cases p <;> rfl

theorem passes_mapperDocument (named : List BuiltinPlugin) :
    Passes (named.map Plugin.builtin) .mapperDocument :=
  passes_builtin named _ fun p _ => by cases p <;> rfl

end PluginChain

/-! ## The document -/

namespace MapperDocument

open Markup (Element)

/-- The fragments of a table. -/
def fragments (table : TableModel) : List Element :=
  FragmentId.all.filterMap (fragment? table)

/-- **The mapper document of a table**, without plugins. -/
def document (table : TableModel) : Markup.Document where
  root :=
    { name := "mapper"
      attributes := [("namespace", table.names.mapperNamespace)]
      children := (fragments table).map (·.toNode) }
  publicId := some publicId
  systemId := some systemId

section

variable {plugins : PluginChain} (helement : ∀ id, plugins.Passes (.mapperElement id))
include helement

theorem value_addFragments (table : TableModel) (ids : List FragmentId) (root : Element) :
    (addFragments table plugins fragment? ids root).value =
      { root with children := root.children ++ (ids.filterMap (fragment? table)).map (·.toNode) } := by
  rw [← Element.foldl_child]
  induction ids generalizing root with
  | nil => rfl
  | cons id rest ih =>
    rw [addFragments]
    cases hid : fragment? table id with
    | none => simpa [hid] using ih root
    | some element => simp [(helement id).value_offer, ih, hid]

/-- **What the document generator builds.** -/
theorem value_generate (hdocument : plugins.Passes .mapperDocument) (settings : Settings)
    (table : TableModel) :
    (generate settings table fragment? plugins).value =
      [.ofDocument settings.mapperProject settings.mapperPackage table.names.mapperFile
        (document table)] := by
  rw [generate]
  simp only [Heard.value_bind, Heard.value_pure, hdocument.value_offer, value_addFragments helement]
  rfl

end

/-! ## Fragments by id -/

/-- The first attribute of an element is an id. -/
def HasId (id : FragmentId) (e : Element) : Prop :=
  ∃ more, e.attributes = ("id", id.name) :: more

section

variable {id : FragmentId} {e : Element}

theorem HasId.of_attributes (h : HasId id e) {e' : Element}
    (hmore : ∃ more, e'.attributes = e.attributes ++ more) :
    HasId id e' := by
  obtain ⟨first, hfirst⟩ := h
  obtain ⟨more, hmore⟩ := hmore
  exact ⟨first ++ more, by rw [hmore, hfirst, List.cons_append]⟩

theorem HasId.attr (h : HasId id e) (name value : String) : HasId id (e.attr name value) :=
  h.of_attributes ⟨_, rfl⟩

theorem HasId.child (h : HasId id e) (inner : Element) : HasId id (e.child inner) :=
  h

theorem HasId.text (h : HasId id e) (s : String) : HasId id (e.text s) :=
  h

theorem HasId.children (h : HasId id e) (inners : List Element) :
    HasId id (inners.foldl (·.child ·) e) := by
  rw [Element.foldl_child]
  exact h

theorem hasId_named (name : String) (id : FragmentId) :
    HasId id ((Element.named name).attr "id" id.name) :=
  ⟨[], rfl⟩

theorem HasId.withGeneratedKey (h : HasId id e) (table : TableModel) (batch : Bool) :
    HasId id (Statements.withGeneratedKey table batch e) := by
  rw [Statements.withGeneratedKey]
  split
  · split
    · exact (h.attr _ _).attr _ _
    · split
      · exact h
      · exact h
  · exact h

theorem hasId_selectFrom (table : TableModel) (id : FragmentId) :
    HasId id (Statements.selectFrom table id) :=
  (((((((hasId_named "select" id).attr _ _).attr _ _).text _).child _).text _).child _).child _

/-- The selection of rows with the clause that orders them on demand. -/
def ordered (table : TableModel) : Element :=
  match table.spec.orderByField with
  | some field =>
    if table.rules.orderBy then
      (Statements.selectFrom table .list).child
        (((Element.named "if").attr "test" (Fragments.isPresent field)).text
          ("order by $\x7b" ++ field ++ "\x7d"))
    else Statements.selectFrom table .list
  | none => Statements.selectFrom table .list

theorem list?_eq (table : TableModel) : Statements.list? table =
    if table.rules.list then
      some (if table.rules.pagination then (ordered table).child
        (Fragments.inclusion .pageLimit) else ordered table)
    else none :=
  rfl

theorem hasId_ordered (table : TableModel) : HasId .list (ordered table) := by
  rw [ordered]
  split
  · split
    · exact (hasId_selectFrom table _).child _
    · exact hasId_selectFrom table _
  · exact hasId_selectFrom table _

end

/-- **The element of a fragment begins with its id.** -/
theorem hasId_of_fragment? {table : TableModel} {id : FragmentId} {e : Element}
    (h : fragment? table id = some e) :
    HasId id e := by
  -- every element begins as a named one, and the later steps keep its id
  cases id with
  | resultMap => cases h; exact ((hasId_named _ _).attr _ _).children _
  | baseColumn | tableName => cases h; exact (hasId_named _ _).text _
  | condition =>
    cases h
    rw [Fragments.condition]
    split
    · exact ((hasId_named _ _).text _).children _
    · exact (hasId_named _ _).children _
  | set | batchSet => cases h; exact (hasId_named _ _).children _
  | batchSetValue => cases h; exact (hasId_named _ _).child _
  | pageLimit =>
    simp only [fragment?, Fragments.pageLimit?] at h
    split at h
    · split at h
      · cases h; exact (hasId_named _ _).child _
      · cases h
    · cases h
  | list =>
    rw [fragment?, list?_eq] at h
    obtain ⟨-, h⟩ := Option.ite_none_right_eq_some.1 h
    cases h
    split
    · exact (hasId_ordered table).child _
    · exact hasId_ordered table
  | getByQc =>
    obtain ⟨-, h⟩ := Option.ite_none_right_eq_some.1 h
    cases h
    exact (hasId_selectFrom table _).text _
  | count =>
    obtain ⟨-, h⟩ := Option.ite_none_right_eq_some.1 h
    cases h
    exact ((((((hasId_named _ _).attr _ _).attr _ _).text _).text _).child _).child _
  | insert =>
    obtain ⟨-, h⟩ := Option.ite_none_right_eq_some.1 h
    cases h
    exact ((((hasId_named _ _).attr _ _).withGeneratedKey table false).text _).child _ |>.child _
  | batchInsert =>
    obtain ⟨-, h⟩ := Option.ite_none_right_eq_some.1 h
    cases h
    exact (((((((hasId_named _ _).attr _ _).withGeneratedKey table true).text _).child _).text
      _).text _).child _
  | update =>
    obtain ⟨-, h⟩ := Option.ite_none_right_eq_some.1 h
    cases h
    exact (((((hasId_named _ _).attr _ _).text _).child _).child _).text _
  | batchUpdate =>
    obtain ⟨-, h⟩ := Option.ite_none_right_eq_some.1 h
    cases h
    exact ((hasId_named _ _).attr _ _).child _

theorem id?_of_fragment? {table : TableModel} {id : FragmentId} {e : Element}
    (h : fragment? table id = some e) : e.id? = some id.name := by
  obtain ⟨more, hmore⟩ := hasId_of_fragment? h
  rw [Element.id?, Element.attribute?, hmore, List.lookup_cons_self]

theorem name_injective {a b : FragmentId} (h : a.name = b.name) : a = b := by
  have hread := FragmentId.ofName?_name a
  rw [h, FragmentId.ofName?_name, Option.some_inj] at hread
  exact hread.symm

/-- **Every fragment is found by its id**, and only those there are. -/
theorem elementById?_document (table : TableModel) (id : FragmentId) :
    (document table).root.elementById? id.name = fragment? table id := by
  have hfind : ∀ ids : List FragmentId,
      ((ids.filterMap (fragment? table)).find? (·.id? == some id.name)) =
      if id ∈ ids then fragment? table id else none := by
    intro ids
    induction ids with
    | nil => rfl
    | cons other rest ih =>
      by_cases hother : other = id
      · subst hother
        cases hfragment : fragment? table other with
        | none => simp [hfragment, ih]
        | some e => simp [hfragment, id?_of_fragment? hfragment]
      · have hrest : (id ∈ other :: rest) = (id ∈ rest) := by simp [Ne.symm hother]
        simp only [hrest]
        cases hfragment : fragment? table other with
        | none => simp [hfragment, ih]
        | some e =>
          have hne : (e.id? == some id.name) = false := by
            rw [id?_of_fragment? hfragment]
            simpa using fun h => hother (name_injective h)
          simp [hfragment, hne, ih]
  rw [Element.elementById?, Element.elements, document, Element.filterMap_element?_toNode,
    fragments, hfind, if_pos (FragmentId.mem_all id)]

end MapperDocument

/-! ## All artifacts of a table -/

section

variable {settings : Settings} {table : TableModel} {named : List BuiltinPlugin}
  {record query mapper : JavaUnit}
  (hrecord : (Record.generate settings table (named.map Plugin.builtin)).value =
    [.ofUnit .record settings.targetProject record])
  (hquery : (QueryCondition.generate settings table (named.map Plugin.builtin)).value =
    [.ofUnit .queryCondition settings.targetProject query])
  (hmapper : (MapperInterface.generate settings table (named.map Plugin.builtin)).value =
    [.ofUnit .mapperInterface settings.targetProject mapper])
include hrecord hquery hmapper

/-- **The artifacts of a table** are its units and its mapper document. -/
theorem value_generateTable_of_units :
    (generateTable settings (named.map Plugin.builtin) table Generator.defaults).value =
      [.ofUnit .record settings.targetProject record,
        .ofUnit .queryCondition settings.targetProject query,
        .ofUnit .mapperInterface settings.targetProject mapper,
        .ofDocument settings.mapperProject settings.mapperPackage table.names.mapperFile
          (MapperDocument.document table)] := by
  have hdocument := MapperDocument.value_generate (PluginChain.passes_mapperElement named)
    (PluginChain.passes_mapperDocument named) settings table
  show (Record.generate _ _ _).value ++ ((QueryCondition.generate _ _ _).value ++
    ((MapperInterface.generate _ _ _).value ++ ((MapperDocument.generate _ _ _ _).value ++ []))) = _
  rw [hrecord, hquery, hmapper, hdocument]
  rfl

/-- What holds of every class and interface of a table. -/
theorem forall_unit_generateTable_iff {P : JavaUnit → Prop} :
    (∀ a ∈ (generateTable settings (named.map Plugin.builtin) table Generator.defaults).value,
      ∀ u, a.body = .java u → P u) ↔ P record ∧ P query ∧ P mapper := by
  rw [value_generateTable_of_units hrecord hquery hmapper]
  simp [Artifact.ofUnit, Artifact.ofDocument]

end

end TableMapper
