import Mathlib.Data.List.Nodup
import TableMapper.Proofs.Artifact.Agreement
import TableMapper.Proofs.Table.Accounting

/-!
# Classes that declare nothing twice

A class may have several methods with one name, and several constructors, as
long as their parameters differ in type. The generators never look at what a
class has already: they add a field and accessors for every property, and
with constructors on demand one over all properties and one without
parameters. **So a table has no class that declares something twice exactly
if the properties of each class have distinct names and distinct getters,
none has the name of the version field, and there is a property to construct
wherever both constructors are wanted** (`generateTable_declaresOnce_iff`). A
record that leaves all its properties to its root class has the same
constructor twice, and columns `order_code` and `orderCode` give the same
field twice (`not_declaresOnce_orders`).
-/

namespace TableMapper

/-! ## What a class declares -/

/-- The types of the parameters, by which methods of one name differ. -/
def Method.parameterTypes (m : Method) : List JavaType :=
  m.parameters.map (·.type)

/-- **A class that declares nothing twice.** -/
structure JavaUnit.DeclaresOnce (u : JavaUnit) : Prop where
  fields : (u.fields.map (·.name)).Nodup
  /-- Constructors share their name. -/
  constructors : ((u.methods.filter (·.isConstructor)).map (·.parameterTypes)).Nodup
  methods : ((u.methods.filter (!·.isConstructor)).map fun m => (m.name, m.parameterTypes)).Nodup

namespace BeanProperty

/-- The accessors of a property; a property that is only read has no
setter. -/
def accessors (readOnly : Bool) (p : BeanProperty) : List Method :=
  p.getter :: if readOnly then [] else [p.setter]

/-- **Properties that can stand in one class**: neither their fields nor their
getters have the same name. -/
structure AreApart (ps : List BeanProperty) : Prop where
  names : (ps.map (·.name)).Nodup
  getters : (ps.map (·.getter.name)).Nodup

/-- Properties with the same setter have the same getter. -/
theorem getter_eq_of_setter_eq {p q : BeanProperty} (hname : p.setter.name = q.setter.name)
    (htypes : p.setter.parameterTypes = q.setter.parameterTypes) :
    p.getter.name = q.getter.name := by
  have htype : p.type = q.type := (List.cons.inj htypes).1
  have hsuffix : Naming.accessorSuffix p.name = Naming.accessorSuffix q.name :=
    (String.append_right_inj "set").1 hname
  show Naming.getter p.name _ = Naming.getter q.name _
  rw [htype, Naming.getter, Naming.getter, hsuffix]

/-- What tells the accessors of a property from other methods. -/
theorem map_accessors (readOnly : Bool) (p : BeanProperty) :
    (p.accessors readOnly).map (fun m => (m.name, m.parameterTypes)) =
      (p.getter.name, []) :: if readOnly then [] else [(p.setter.name, [p.type])] := by
  cases readOnly <;> rfl

/-- **Accessors are declared once exactly if getters are**: a getter differs
from every setter in its parameters. -/
theorem nodup_accessors (readOnly : Bool) (ps : List BeanProperty) :
    ((ps.flatMap (accessors readOnly)).map fun m => (m.name, m.parameterTypes)).Nodup ↔
      (ps.map (·.getter.name)).Nodup := by
  have hown : ∀ p ∈ ps, ((p.accessors readOnly).map fun m => (m.name, m.parameterTypes)).Nodup := by
    intro p _
    rw [map_accessors]
    cases readOnly <;> simp
  have hpair : ∀ p q :
      BeanProperty, List.Disjoint ((p.accessors readOnly).map fun m => (m.name, m.parameterTypes))
      ((q.accessors readOnly).map fun m => (m.name, m.parameterTypes)) ↔
      p.getter.name ≠ q.getter.name := by
    intro p q
    constructor
    · intro h heq
      refine h (List.mem_map_of_mem List.mem_cons_self)
        (List.mem_map.2 ⟨q.getter, List.mem_cons_self, ?_⟩)
      rw [heq]
      rfl
    · rintro hne ⟨name, types⟩ hp hq
      rw [map_accessors] at hp hq
      cases readOnly with
      | true =>
        obtain ⟨hp, -⟩ := Prod.mk.inj (List.mem_singleton.1 hp)
        obtain ⟨hq, -⟩ := Prod.mk.inj (List.mem_singleton.1 hq)
        exact hne (hp.symm.trans hq)
      | false =>
        simp only [List.mem_cons, Prod.mk.injEq, List.not_mem_nil, or_false,
          Bool.false_eq_true, if_false] at hp hq
        rcases hp with ⟨hp, rfl⟩ | ⟨hp, rfl⟩
        · rcases hq with ⟨hq, -⟩ | ⟨-, hq⟩
          · exact hne (hp.symm.trans hq)
          · cases hq
        · rcases hq with ⟨-, hq⟩ | ⟨hq, htypes⟩
          · cases hq
          · exact hne (getter_eq_of_setter_eq (hp.symm.trans hq) htypes)
  rw [List.map_flatMap, List.nodup_flatMap, and_iff_right hown,
    List.nodup_iff_pairwise_ne, List.pairwise_map]
  exact List.Pairwise.iff fun p q => hpair p q

end BeanProperty

/-! ## What generators declare -/

section

variable (settings : Settings) (table : TableModel) {kind : ModelKind}

namespace JavaUnit

/-- Without plugins every property has its accessors. -/
theorem methods_addAccessors (readOnly : Bool) (ps : List BeanProperty) (u : JavaUnit) :
    (addAccessors [] table kind readOnly ps u).value.methods =
      u.methods ++ ps.flatMap (BeanProperty.accessors readOnly) := by
  induction ps generalizing u with
  | nil => exact (List.append_nil _).symm
  | cons p ps ih =>
    have hgetter : (addGetter [] table kind p u).value.methods = u.methods ++ [p.getter] := by
      rw [addGetter, Heard.value_bind, PluginChain.value_offer_nil, Heard.value_pure]
      simp
    have hsetter : ∀ v :
        JavaUnit, (addSetter [] table kind p v).value.methods = v.methods ++ [p.setter] := by
      intro v
      rw [addSetter, Heard.value_bind, PluginChain.value_offer_nil, Heard.value_pure]
      simp
    rw [value_addAccessors_cons, ih, List.flatMap_cons, BeanProperty.accessors]
    cases readOnly with
    | true => simp [hgetter]
    | false => simp [hgetter, hsetter]

theorem methods_addFields (ps : List BeanProperty) (u : JavaUnit) :
    (addFields [] table kind ps u).value.methods = u.methods := by
  induction ps generalizing u with
  | nil => rfl
  | cons p ps ih =>
    rw [addFields, Heard.value_bind, PluginChain.value_offer_nil, ih]
    rfl

/-- **A class with some fields and constructors, and the fields and accessors
of its properties, declares nothing twice** exactly if the first are distinct
and the properties apart. -/
theorem declaresOnce_iff {u : JavaUnit} {fields : List Field} {constructors : List Method}
    {ps : List BeanProperty}
    {readOnly : Bool} (hfields : u.fields = fields ++ ps.map (·.field))
    (hmethods : u.methods = constructors ++ ps.flatMap (BeanProperty.accessors readOnly))
    (hconstructors : ∀ m ∈ constructors, m.isConstructor = true)
    (hown : (fields.map (·.name)).Nodup) :
    u.DeclaresOnce ↔ BeanProperty.AreApart ps ∧ (∀ f ∈ fields, f.name ∉ ps.map (·.name)) ∧
      (constructors.map (·.parameterTypes)).Nodup := by
  have haccessors : ∀ m ∈ ps.flatMap (BeanProperty.accessors readOnly),
      m.isConstructor = false := by
    intro m hm
    obtain ⟨p, -, hm⟩ := List.mem_flatMap.1 hm
    rcases List.mem_cons.1 hm with rfl | hm
    · rfl
    · split at hm
      · exact absurd hm List.not_mem_nil
      · rw [List.mem_singleton.1 hm]
        rfl
  have hfirst : u.methods.filter (·.isConstructor) = constructors := by
    rw [hmethods, List.filter_append, List.filter_eq_self.2 hconstructors,
      List.filter_eq_nil_iff.2 fun m hm => by simp [haccessors m hm], List.append_nil]
  have hrest : u.methods.filter (!·.isConstructor)
      = ps.flatMap (BeanProperty.accessors readOnly) := by
    rw [hmethods, List.filter_append, List.filter_eq_nil_iff.2 fun m hm => by
      simp [hconstructors m hm], List.filter_eq_self.2 fun m hm => by
        simp [haccessors m hm], List.nil_append]
  have hnames : (u.fields.map (·.name)).Nodup ↔ (ps.map (·.name)).Nodup ∧ ∀ f ∈ fields,
      f.name ∉ ps.map (·.name) := by
    have hfieldNames : (ps.map (·.field)).map (·.name) = ps.map (·.name) := by
      rw [List.map_map]
      rfl
    rw [hfields, List.map_append, hfieldNames, List.nodup_append,
      and_iff_right hown, List.forall_mem_map]
    refine and_congr_right fun _ => forall₂_congr fun f _ => ?_
    exact ⟨fun h hmem => h _ hmem rfl, fun h name hname heq => h (heq ▸ hname)⟩
  constructor
  · intro h
    have hgetters := h.methods
    rw [hrest, BeanProperty.nodup_accessors] at hgetters
    obtain ⟨hproperties, hapart⟩ := hnames.1 h.fields
    exact ⟨⟨hproperties, hgetters⟩, hapart, hfirst ▸ h.constructors⟩
  · rintro ⟨hproperties, hapart, hdistinct⟩
    refine ⟨hnames.2 ⟨hproperties.names, hapart⟩, hfirst.symm ▸ hdistinct, ?_⟩
    rw [hrest, BeanProperty.nodup_accessors]
    exact hproperties.getters

end JavaUnit

namespace Record

/-- **Constructors differ in their parameters** unless both are wanted and
there is nothing to construct from. -/
theorem nodup_constructors {u : JavaUnit} {ps : List BeanProperty}
    (h : ∀ p ∈ ps, p.field ∈ u.fields) :
    ((constructors settings u ps).map (·.parameterTypes)).Nodup ↔
      (settings.hasConstructor = true → settings.immutable = false → ps ≠ []) := by
  have hfull : (fullConstructor u ps).parameterTypes = ps.map (·.type) := by
    have hpresent : ps.filter (fun p => u.fields.any (·.name == p.name)) = ps :=
      List.filter_eq_self.2 fun p hp => List.any_eq_true.2 ⟨p.field, h p hp, beq_self_eq_true _⟩
    rw [Method.parameterTypes, fullConstructor]
    simp only [hpresent, List.map_map]
    rfl
  rw [constructors]
  cases settings.hasConstructor with
  | false => simp
  | true =>
    cases settings.immutable with
    | true => simp
    | false =>
      have hempty : (emptyConstructor u).parameterTypes = [] := rfl
      simp [hfull, hempty]

theorem isConstructor_of_mem {u : JavaUnit} {ps : List BeanProperty} {m : Method}
    (hm : m ∈ constructors settings u ps) : m.isConstructor = true := by
  rw [constructors] at hm
  split at hm
  · rcases List.mem_cons.1 hm with rfl | hm
    · rfl
    · split at hm
      · exact absurd hm List.not_mem_nil
      · rw [List.mem_singleton.1 hm]
        rfl
  · exact absurd hm List.not_mem_nil

/-- **The record of a table declares nothing twice** exactly if its properties
are apart, none has the name of the version field, and the constructors
differ. -/
theorem exists_declaresOnce_iff : ∃ record, (generate settings table []).value =
      [.ofUnit .record settings.targetProject record] ∧
    (record.DeclaresOnce ↔ BeanProperty.AreApart (properties settings table) ∧
      (settings.serializable = true →
        versionField.name ∉ (properties settings table).map (·.name)) ∧
      (settings.hasConstructor = true → settings.immutable = false →
        properties settings table ≠ [])) := by
  let ps := properties settings table
  let versions := if settings.serializable then [versionField] else []
  let unit := (JavaUnit.addFields [] table .record ps (bare settings table)).value
  let record :=
    (JavaUnit.addAccessors [] table .record settings.immutable ps
      (addConstructors settings ps unit)).value
  obtain ⟨hbareFields, hbareMethods⟩ := members_bare settings table
  have hunit : unit.fields = versions ++ ps.map (·.field) := by
    rw [(JavaUnit.fields_addFields (fun _ => .nil) ps (bare settings table)).1, hbareFields]
  have hfields : record.fields = versions ++ ps.map (·.field) := by
    rw [(JavaUnit.fields_addAccessors settings.immutable ps _).1, fields_addConstructors, hunit]
  have hmethods : record.methods =
      constructors settings unit ps ++ ps.flatMap (BeanProperty.accessors settings.immutable) := by
    rw [JavaUnit.methods_addAccessors, addConstructors_eq]
    show unit.methods ++ _ ++ _ = _
    rw [JavaUnit.methods_addFields, hbareMethods, List.nil_append]
  have hversions : (versions.map (·.name)).Nodup := by
    cases hserializable : settings.serializable <;> simp [versions, hserializable]
  have hversion : (∀ f ∈ versions, f.name ∉ ps.map (·.name)) ↔
      (settings.serializable = true → versionField.name ∉ ps.map (·.name)) := by
    cases hserializable : settings.serializable <;> simp [versions, hserializable]
  have hpresent : ∀ p ∈ ps, p.field ∈ unit.fields :=
    fun p hp => hunit ▸ List.mem_append_right _ (List.mem_map_of_mem hp)
  refine ⟨record, rfl, ?_⟩
  rw [JavaUnit.declaresOnce_iff hfields hmethods (fun m hm => isConstructor_of_mem settings hm)
    hversions, hversion, nodup_constructors settings hpresent]

end Record

/-- **The query condition of a table declares nothing twice** exactly if its
properties are apart. -/
theorem QueryCondition.exists_declaresOnce_iff : ∃ query, (generate settings table []).value =
      [.ofUnit .queryCondition settings.targetProject query] ∧
    (query.DeclaresOnce ↔ BeanProperty.AreApart (properties settings table)) := by
  let ps := properties settings table
  let unit := (JavaUnit.addFields [] table .queryCondition ps (bare settings table)).value
  let query := (JavaUnit.addAccessors [] table .queryCondition false ps unit).value
  have hbare : (bare settings table).fields = [] ∧ (bare settings table).methods = [] := by
    rw [bare]
    cases settings.queryRoot <;> exact ⟨rfl, rfl⟩
  have hfields : query.fields = [] ++ ps.map (·.field) := by
    rw [(JavaUnit.fields_addAccessors false ps _).1,
      (JavaUnit.fields_addFields (fun _ => .nil) ps _).1, hbare.1]
  have hmethods : query.methods = [] ++ ps.flatMap (BeanProperty.accessors false) := by
    rw [JavaUnit.methods_addAccessors, JavaUnit.methods_addFields, hbare.2]
  refine ⟨query, rfl, ?_⟩
  rw [JavaUnit.declaresOnce_iff hfields hmethods (List.forall_mem_nil _) List.nodup_nil]
  simp [ps]

/-- **A mapper interface declares nothing twice.** -/
theorem MapperInterface.exists_declaresOnce : ∃ mapper, (generate settings table []).value =
    [.ofUnit .mapperInterface settings.targetProject mapper] ∧ mapper.DeclaresOnce := by
  have hfields : ∀ (all : List (FragmentId × Method)) (u : JavaUnit),
      (addMethods table [] all u).value.fields = u.fields := by
    intro all
    induction all with
    | nil => exact fun u => rfl
    | cons entry all ih =>
      intro u
      rw [addMethods, Heard.value_bind, PluginChain.value_offer_nil, ih]
      simp
  let mapper := (addMethods table [] (methods table) (bare table)).value
  let wanted := callable.filter (MapperDocument.wants table.rules)
  have hmethods : mapper.methods = wanted.map (method table) := by
    rw [(methods_addMethods table (methods table) (bare table)).1, map_methods]
    rfl
  have hnot : ∀ m ∈ mapper.methods, m.isConstructor = false := by
    rw [hmethods]
    intro m hm
    obtain ⟨id, -, rfl⟩ := List.mem_map.1 hm
    cases id <;> rfl
  have hnames : (mapper.methods.map (·.name)).Nodup := by
    have hname : ∀ id ∈ wanted, ((·.name) ∘ method table) id = id.name :=
      fun id hid => name_method table (List.mem_filter.1 hid).1
    rw [hmethods, List.map_map, List.map_congr_left hname]
    exact (List.filter_sublist.map _).nodup (by decide : (callable.map (·.name)).Nodup)
  refine ⟨mapper, rfl, ?_, ?_, ?_⟩
  · rw [hfields]
    exact List.nodup_nil
  · rw [List.filter_eq_nil_iff.2 fun m hm => by simp [hnot m hm]]
    exact List.nodup_nil
  · rw [List.filter_eq_self.2 fun m hm => by simp [hnot m hm]]
    exact List.Nodup.of_map Prod.fst (by rwa [List.map_map])

/-- **The classes of a table declare nothing twice** exactly if the properties
of its record and those of its query condition are apart, no property of the
record has the name of the version field where there is one, and the record
has properties wherever it has both constructors. -/
theorem generateTable_declaresOnce_iff :
    (∀ a ∈ (generateTable settings [] table Generator.defaults).value, ∀ u, a.body = .java u → u.DeclaresOnce) ↔
      BeanProperty.AreApart (Record.properties settings table) ∧
      BeanProperty.AreApart (QueryCondition.properties settings table) ∧
      (settings.serializable = true → Record.versionField.name ∉ (Record.properties settings table).map (·.name)) ∧
      (settings.hasConstructor = true → settings.immutable = false → Record.properties settings table ≠ []) := by
  obtain ⟨record, hrecords, hrecord⟩ := Record.exists_declaresOnce_iff settings table
  obtain ⟨query, hqueries, hquery⟩ := QueryCondition.exists_declaresOnce_iff settings table
  obtain ⟨mapper, hmappers, hmapper⟩ := MapperInterface.exists_declaresOnce settings table
  have hall := @forall_unit_generateTable_iff settings table [] record query mapper
    hrecords hqueries hmappers
    JavaUnit.DeclaresOnce
  rw [hrecord, hquery, and_iff_left hmapper] at hall
  refine hall.trans ?_
  tauto

end

/-! ## A constructor twice, and a field twice -/

/-- Columns of orders, as they are reported. -/
def ordersReported (names : List String) : MetadataSource :=
  Introspection.keylessSource (names.map fun name => Introspection.rowOfType "orders" name 12)

/-- Records with both constructors that extend a class with a code. -/
def ordersRooted : Settings :=
  { constructorBased := true, recordRoot := some ⟨"com.example.Base", ["code"]⟩ }

/-- What can be told of the only table of a source. -/
theorem Introspection.exists_table_of_map {α : Type} {settings : Settings} {source : MetadataSource}
    {f : TableModel → α} {a : α}
    (h : (introspectAll settings source settings.effectiveSpecs).toOption.map
      (fun found => found.value.map f) = some [a]) :
    ∃ found table, introspectAll settings source settings.effectiveSpecs = .ok found ∧
    table ∈ found.value ∧
      f table = a := by
  cases hfound : introspectAll settings source settings.effectiveSpecs with
  | error fault => rw [hfound] at h; cases h
  | ok found =>
    rw [hfound] at h
    obtain ⟨table, htable, hf⟩ := List.map_eq_singleton_iff.1 (Option.some.inj h)
    exact ⟨found, table, rfl, htable ▸ List.mem_singleton_self _, hf⟩

/-- What the properties of the record of the orders are called. -/
theorem exists_properties_orders (settings : Settings) {names properties : List String}
    (h : (Introspection.introspectAll settings (ordersReported names)
      settings.effectiveSpecs).toOption.map
        (fun found => found.value.map fun table => (Record.properties settings table).map (·.name))
          = some [properties]) :
    ∃ found table, Introspection.introspectAll settings (ordersReported names)
      settings.effectiveSpecs = .ok found ∧
      table ∈ found.value ∧ (Record.properties settings table).map (·.name) = properties :=
  Introspection.exists_table_of_map h

/-- Under valid settings the record of the orders declares something twice,
though the names of its columns differ in more than case. -/
def RepeatsDeclarations (settings : Settings) (names : List String) : Prop :=
  settings.problems = [] ∧ names.Pairwise (fun a b => Text.sameIgnoringCase a b = false) ∧
    ∃ found table record,
      Introspection.introspectAll settings (ordersReported names)
        settings.effectiveSpecs = .ok found ∧
      table ∈ found.value ∧
      .ofUnit .record settings.targetProject record
        ∈ (generateTable settings [] table Generator.defaults).value ∧
      ¬ record.DeclaresOnce

/-- **A record has the same constructor twice** if its root class declares its
only property, **and the same field twice** if the names of two columns differ
in more than case but not once they are camel case. -/
theorem not_declaresOnce_orders :
    RepeatsDeclarations ordersRooted ["code"] ∧ RepeatsDeclarations {} ["order_code", "orderCode"] := by
  refine ⟨⟨by decide +kernel, by decide, ?_⟩, ⟨by decide +kernel, by decide +kernel, ?_⟩⟩
  case refine_1 =>
    obtain ⟨found, table, hfound, htable, hproperties⟩ :=
      @exists_properties_orders ordersRooted ["code"] [] (by decide +kernel)
    obtain ⟨record, hrecord, honce⟩ := Record.exists_declaresOnce_iff ordersRooted table
    refine ⟨found, table, record, hfound, htable,
      List.mem_append_left _ (hrecord ▸ List.mem_singleton_self _), ?_⟩
    exact fun h => (honce.1 h).2.2 rfl rfl (List.map_eq_nil_iff.1 hproperties)
  case refine_2 =>
    obtain ⟨found, table, hfound, htable, hproperties⟩ :=
      @exists_properties_orders {} ["order_code", "orderCode"]
        ["orderCode", "orderCode"] (by decide +kernel)
    obtain ⟨record, hrecord, honce⟩ := Record.exists_declaresOnce_iff {} table
    refine ⟨found, table, record, hfound, htable,
      List.mem_append_left _ (hrecord ▸ List.mem_singleton_self _), ?_⟩
    intro h
    have hnames := (honce.1 h).1.names
    rw [hproperties] at hnames
    exact absurd hnames (by decide)

end TableMapper
