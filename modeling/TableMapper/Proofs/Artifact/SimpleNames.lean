import TableMapper.Proofs.Artifact.DeclaredOnce
import TableMapper.Proofs.Artifact.NeededImports

/-!
# Types by their simple names

Wherever a type is written it is written by the last part of its name, and
whether another type is written the same way is not looked at. A class that is
called like a type it mentions, or that mentions two types of one simple name
from different packages, is written all the same, with imports that contradict
each other or the class. **So the simple names of a table denote the types
they were made from exactly if the types that a class mentions, the class
itself and the primitive types have different simple names**
(`generateTable_unambiguous_iff`). The types are those of the properties, the
root class, the interfaces and the statements; how they came to be, by the
type of a column or by an override, makes no difference. A table `date` with a
date, and a table `list` with a mapper, have classes in which they do not
(`not_unambiguous_date`).
-/

namespace TableMapper

open JavaType

/-! ## What simple names denote -/

/-- The last part of a qualified name. -/
def JavaType.simpleName (name : String) : String :=
  (splitName name).2

/-- A name without brackets that some types mention. -/
def JavaType.Mentions (ts : List JavaType) (name : String) : Prop :=
  ∃ s ∈ ts, ∃ t : JavaType, t.StandsIn s ∧ name = elementName t.qualifiedName

namespace JavaUnit

/-- **What a simple name denotes in a class**: a primitive type, the class
itself, what is imported, and of the package and the language what the class
mentions without an import. -/
inductive Denotes (u : JavaUnit) : String → String → Prop
  | primitive {word : String} (h : word ∈ primitives) : Denotes u word word
  | own : Denotes u (simpleName u.type.qualifiedName) u.type.qualifiedName
  | imported {name : String} (h : name ∈ u.imports) : Denotes u (simpleName name) name
  | visible {s t : JavaType} (hs : s ∈ u.types) (ht : t.StandsIn s)
      (h : ¬ t.MustBeImported u.type.packageName?) :
    Denotes u (simpleName (elementName t.qualifiedName)) (elementName t.qualifiedName)

/-- **A class of which the simple names are unambiguous.** -/
structure Unambiguous (u : JavaUnit) : Prop where
  imports : ∀ a ∈ u.imports, ∀ b ∈ u.imports, simpleName a = simpleName b → a = b
  /-- No import takes the name of the class. -/
  own : ∀ a ∈ u.imports, simpleName a ≠ simpleName u.type.qualifiedName
  itself : ∀ name, u.Denotes (simpleName u.type.qualifiedName) name → name = u.type.qualifiedName
  /-- A type that is written by its simple name is denoted by it. -/
  words : ∀ written, Mentions u.types written → ∀ name, u.Denotes (simpleName written) name ↔
    name = written

/-- A name that a class knows: its own, a primitive one, or one it mentions. -/
def IsKnown (own : String) (ts : List JavaType) (name : String) : Prop :=
  name = own ∨ name ∈ primitives ∨ Mentions ts name

/-- **Types that a class can mention by their simple names.** -/
def NamesApart (own : String) (ts : List JavaType) : Prop :=
  ∀ a b, IsKnown own ts a → IsKnown own ts b → simpleName a = simpleName b → a = b

variable {u : JavaUnit} {name word : String}

theorem simpleName_primitive (h : name ∈ primitives) : simpleName name = name := by
  have hall : ∀ name ∈ primitives, simpleName name = name := by decide +kernel
  exact hall name h

/-- **A simple name denotes what is known by it.** -/
theorem denotes_iff (h : u.ImportsExactly u.types) :
    u.Denotes word name ↔ IsKnown u.type.qualifiedName u.types name ∧ simpleName name = word := by
  constructor
  · intro hdenotes
    cases hdenotes with
    | primitive hword => exact ⟨.inr (.inl hword), simpleName_primitive hword⟩
    | own => exact ⟨.inl rfl, rfl⟩
    | imported hname =>
      obtain ⟨s, hs, t, ht, -, heq⟩ := (h.mem_iff name).1 hname
      exact ⟨.inr (.inr ⟨s, hs, t, ht, heq⟩), rfl⟩
    | visible hs ht hneeds => exact ⟨.inr (.inr ⟨_, hs, _, ht, rfl⟩), rfl⟩
  · rintro ⟨rfl | hname | ⟨s, hs, t, ht, rfl⟩, rfl⟩
    · exact .own
    · rw [simpleName_primitive hname]
      exact .primitive hname
    · by_cases hneeds : t.MustBeImported u.type.packageName?
      · exact .imported ((h.mem_iff _).2 ⟨s, hs, t, ht, hneeds, rfl⟩)
      · exact .visible hs ht hneeds

/-- The class itself is not imported. -/
theorem ne_of_mem_imports (h : u.ImportsExactly u.types) (hname : name ∈ u.imports) :
    name ≠ u.type.qualifiedName := by
  obtain ⟨s, -, t, -, ⟨⟨package, hpackage, -, hother⟩, -⟩, rfl⟩ := (h.mem_iff name).1 hname
  intro heq
  apply hother
  rw [packageName?, ← heq, fst_splitName_elementName]
  exact hpackage

/-- **The simple names of a class are unambiguous** exactly if they are those
of one known type each. -/
theorem unambiguous_iff (h : u.ImportsExactly u.types) :
    u.Unambiguous ↔ NamesApart u.type.qualifiedName u.types := by
  constructor
  · rintro hu a b ha hb heq
    rcases ha with rfl | ha | ha
    · exact (hu.itself b ((denotes_iff h).2 ⟨hb, heq.symm⟩)).symm
    · rcases hb with rfl | hb | hb
      · exact hu.itself a ((denotes_iff h).2 ⟨.inr (.inl ha), heq⟩)
      · rwa [simpleName_primitive ha, simpleName_primitive hb] at heq
      · exact (hu.words b hb a).1 ((denotes_iff h).2 ⟨.inr (.inl ha), heq⟩)
    · exact ((hu.words a ha b).1 ((denotes_iff h).2 ⟨hb, heq.symm⟩)).symm
  · intro hapart
    have hknown : ∀ name ∈ u.imports, IsKnown u.type.qualifiedName u.types name :=
      fun name hname => ((denotes_iff h).1 (.imported hname)).1
    refine ⟨fun a ha b hb => hapart a b (hknown a ha) (hknown b hb), fun a ha heq => ?_,
      fun name hname => ?_, fun written hwritten name => ?_⟩
    · exact ne_of_mem_imports h ha (hapart a _ (hknown a ha) (.inl rfl) heq)
    · obtain ⟨hname, heq⟩ := (denotes_iff h).1 hname
      exact hapart name _ hname (.inl rfl) heq
    · rw [denotes_iff h]
      refine ⟨fun ⟨hname, heq⟩ => hapart name written hname (.inr (.inr hwritten)) heq, ?_⟩
      rintro rfl
      exact ⟨.inr (.inr hwritten), rfl⟩

/-! ## Types up to primitive ones -/

/-- The primitive types as types. -/
def IsPrimitiveType (t : JavaType) : Prop :=
  ∃ name ∈ primitives, t = .named name

theorem isKnown_of_subset {own : String} {ts ts' : List JavaType}
    (h : ∀ t ∈ ts, t ∈ ts' ∨ IsPrimitiveType t)
    (hname : IsKnown own ts name) : IsKnown own ts' name := by
  refine hname.imp_right fun hname => hname.elim .inl ?_
  rintro ⟨s, hs, t, ht, rfl⟩
  rcases h s hs with hs | ⟨primitive, hprimitive, rfl⟩
  · exact .inr ⟨s, hs, t, ht, rfl⟩
  · have hall : ∀ name ∈ primitives, elementName name ∈ primitives := by decide +kernel
    cases ht with
    | here => exact .inl (hall primitive hprimitive)
    | argument hs => exact absurd hs List.not_mem_nil

/-- Primitive types are known in any case. -/
theorem namesApart_congr {own : String} {ts ts' : List JavaType}
    (h : ∀ t ∈ ts, t ∈ ts' ∨ IsPrimitiveType t)
    (h' : ∀ t ∈ ts', t ∈ ts ∨ IsPrimitiveType t) : NamesApart own ts ↔ NamesApart own ts' :=
  ⟨fun hapart a b ha hb => hapart a b (isKnown_of_subset h' ha) (isKnown_of_subset h' hb),
    fun hapart a b ha hb => hapart a b (isKnown_of_subset h ha) (isKnown_of_subset h hb)⟩

/-- **What a builder leaves**: the types of a class and further ones, and
primitive types besides. -/
structure Gains (u v : JavaUnit) (ts : List JavaType) : Prop where
  type : v.type = u.type
  only : ∀ t ∈ v.types, t ∈ u.types ++ ts ∨ IsPrimitiveType t
  all : ∀ t ∈ u.types ++ ts, t ∈ v.types

theorem Gains.refl (u : JavaUnit) : u.Gains u [] :=
  ⟨rfl, fun _ ht => .inl (List.mem_append_left _ ht), fun _ ht => by rwa [List.append_nil] at ht⟩

theorem Gains.trans {v w : JavaUnit} {ts ts' : List JavaType} (h : u.Gains v ts)
    (h' : v.Gains w ts') :
    u.Gains w (ts ++ ts') := by
  refine ⟨h'.type.trans h.type, fun t ht => ?_, fun t ht => ?_⟩
  · rw [← List.append_assoc]
    rcases h'.only t ht with ht | ht
    · rcases List.mem_append.1 ht with ht | ht
      · exact (h.only t ht).imp_left (List.mem_append_left _)
      · exact .inl (List.mem_append_right _ ht)
    · exact .inr ht
  · rw [← List.append_assoc] at ht
    exact h'.all t ((List.mem_append.1 ht).elim (fun ht => List.mem_append_left _ (h.all t ht))
      (List.mem_append_right _))

theorem Gains.namesApart_iff {v : JavaUnit} {ts : List JavaType} {own : String} (h : u.Gains v ts) :
    NamesApart own v.types ↔ NamesApart own (u.types ++ ts) :=
  namesApart_congr h.only fun t ht => .inl (h.all t ht)

section

variable (table : TableModel) (kind : ModelKind)

/-- A method brings its types, with or without imports. -/
theorem gains_addMethod (u : JavaUnit) (imported : List JavaType) {m : Method} {ts : List JavaType}
    (honly : ∀ t ∈ m.types, t ∈ u.types ++ ts ∨ IsPrimitiveType t) (hall : ∀ t ∈ ts, t ∈ m.types) :
    u.Gains ((u.addImports imported).addMethod m) ts := by
  refine ⟨by rw [type_addMethod, type_addImports], fun t ht => ?_, fun t ht => ?_⟩
  · rw [mem_types_addMethod, types_addImports] at ht
    exact ht.elim (fun ht => .inl (List.mem_append_left _ ht)) (honly t)
  · rw [mem_types_addMethod, types_addImports]
    exact (List.mem_append.1 ht).imp_right (hall t)

theorem gains_addFields (ps : List BeanProperty) (u : JavaUnit) :
    u.Gains (addFields [] table kind ps u).value (ps.map (·.type)) := by
  induction ps generalizing u with
  | nil => exact .refl u
  | cons p ps ih =>
    have hfirst : u.Gains (u.addField p.field) [p.type] := by
      refine ⟨rfl, fun t ht => .inl ?_, fun t ht => mem_types_addField.2 ?_⟩
      · exact List.mem_append.2 ((mem_types_addField.1 ht).imp_right List.mem_singleton.2)
      · exact (List.mem_append.1 ht).imp_right List.mem_singleton.1
    rw [addFields, Heard.value_bind, PluginChain.value_offer_nil]
    exact hfirst.trans (ih (u.addField p.field))

theorem gains_addGetter (p : BeanProperty) (u : JavaUnit) :
    u.Gains (addGetter [] table kind p u).value [p.type] := by
  rw [addGetter, Heard.value_bind, PluginChain.value_offer_nil, Heard.value_pure]
  exact gains_addMethod u _ (fun t ht => .inl (List.mem_append_right _ ht)) fun t ht => ht

/-- A setter brings nothing that the getter has not brought. -/
theorem gains_addSetter (p : BeanProperty) {u : JavaUnit} (h : p.type ∈ u.types) :
    u.Gains (addSetter [] table kind p u).value [] := by
  rw [addSetter, Heard.value_bind, PluginChain.value_offer_nil, Heard.value_pure]
  refine gains_addMethod u _ (fun t ht => ?_) fun t ht => absurd ht List.not_mem_nil
  rcases List.mem_append.1 ht with ht | ht
  · exact .inr ⟨"void", by decide, (Option.some.inj (Option.mem_toList.1 ht)).symm⟩
  · exact .inl (List.mem_append_left _ (List.mem_singleton.1 ht ▸ h))

/-- **Accessors bring no types** but those of their properties. -/
theorem gains_addAccessors (readOnly : Bool) (ps : List BeanProperty) (u : JavaUnit) :
    u.Gains (addAccessors [] table kind readOnly ps u).value (ps.map (·.type)) := by
  induction ps generalizing u with
  | nil => exact .refl u
  | cons p ps ih =>
    have hgetter := gains_addGetter table kind p u
    have hread := hgetter.all p.type (List.mem_append_right _ (List.mem_singleton_self _))
    rw [value_addAccessors_cons]
    split
    · exact hgetter.trans (ih _)
    · exact (hgetter.trans (gains_addSetter table kind p hread)).trans (ih _)

end

end JavaUnit

/-! ## The classes of a table -/

section

variable (settings : Settings) (table : TableModel)

namespace Record

/-- The types that a record mentions. -/
def mentioned : List JavaType :=
  (superclass? settings).toList ++ superInterfaces settings ++
    (properties settings table).map (·.type)

theorem gains_addConstructors {u : JavaUnit} {ps : List BeanProperty}
    (h : ∀ p ∈ ps, p.field ∈ u.fields) :
    u.Gains (addConstructors settings ps u) [] := by
  rw [addConstructors]
  split
  · have hfull : u.Gains (u.addMethod (fullConstructor u ps)) [] := by
      refine JavaUnit.gains_addMethod u [] (fun t ht => .inl ?_) fun t ht =>
        absurd ht List.not_mem_nil
      exact List.mem_append_left _ (types_fullConstructor h t ht)
    simp only
    split
    · exact hfull
    · exact hfull.trans (JavaUnit.gains_addMethod _ [] (m := emptyConstructor u)
        (fun t ht => absurd ht List.not_mem_nil) fun t ht => absurd ht List.not_mem_nil)
  · exact .refl u

/-- The version field is of a primitive type. -/
theorem namesApart_bare {own : String} (ts : List JavaType) :
    JavaUnit.NamesApart own ((bare settings table).types ++ ts) ↔
    JavaUnit.NamesApart own ((superclass? settings).toList ++ superInterfaces settings ++ ts) := by
  obtain ⟨-, -, hsuper, hinterfaces, -⟩ := @header_bare settings table
  obtain ⟨hfields, hmethods⟩ := members_bare settings table
  rw [JavaUnit.types, hsuper, hinterfaces, hfields, hmethods, List.flatMap_nil, List.append_nil]
  refine JavaUnit.namesApart_congr (fun t ht => ?_) fun t ht => .inl ?_
  · rcases List.mem_append.1 ht with ht | ht
    · rcases List.mem_append.1 ht with ht | ht
      · exact .inl (List.mem_append_left _ ht)
      · obtain ⟨f, hf, rfl⟩ := List.mem_map.1 ht
        split at hf
        · exact .inr ⟨"long", by decide, congrArg Field.type (List.mem_singleton.1 hf)⟩
        · exact absurd hf List.not_mem_nil
    · exact .inl (List.mem_append_right _ ht)
  · rcases List.mem_append.1 ht with ht | ht
    · exact List.mem_append_left _ (List.mem_append_left _ ht)
    · exact List.mem_append_right _ ht

/-- **The simple names of a record** are unambiguous exactly if those of its
root class, its interfaces and its properties are apart. -/
theorem exists_unambiguous_iff : ∃ record, (generate settings table []).value =
      [.ofUnit .record settings.targetProject record] ∧
    (record.Unambiguous ↔
      JavaUnit.NamesApart table.names.recordType.qualifiedName (mentioned settings table)) := by
  let ps := properties settings table
  let unit := (JavaUnit.addFields [] table .record ps (bare settings table)).value
  obtain ⟨record, hrecord, htype, himports⟩ := exists_importsExactly settings table []
  obtain rfl : (JavaUnit.addAccessors [] table .record settings.immutable ps
      (addConstructors settings ps unit)).value =
      record :=
    ArtifactBody.java.inj (congrArg Artifact.body (List.singleton_inj.1 hrecord))
  have hfields : ∀ p ∈ ps, p.field ∈ unit.fields := by
    intro p hp
    rw [(JavaUnit.fields_addFields (fun _ => .nil) ps (bare settings table)).1]
    exact List.mem_append_right _ (List.mem_map_of_mem hp)
  have hgains :=
    ((JavaUnit.gains_addFields table .record ps (bare settings table)).trans
      (gains_addConstructors settings hfields)).trans
    (JavaUnit.gains_addAccessors table .record settings.immutable ps _)
  rw [annotationTypes, List.filter_nil, List.map_nil, List.append_nil] at himports
  refine ⟨_, hrecord, ?_⟩
  rw [JavaUnit.unambiguous_iff himports, htype, hgains.namesApart_iff, namesApart_bare, mentioned]
  refine JavaUnit.namesApart_congr (fun t ht => .inl ?_) fun t ht => .inl ?_
  · simpa [or_assoc] using ht
  · simpa [or_assoc] using ht

end Record

/-- The types that a query condition mentions. -/
def QueryCondition.mentioned : List JavaType :=
  settings.queryRoot.toList.map .named ++ (properties settings table).map (·.type)

/-- **The simple names of a query condition** are unambiguous exactly if those
of its root class and its properties are apart. -/
theorem QueryCondition.exists_unambiguous_iff : ∃ query, (generate settings table []).value =
      [.ofUnit .queryCondition settings.targetProject query] ∧
    (query.Unambiguous ↔
      JavaUnit.NamesApart table.names.queryType.qualifiedName (mentioned settings table)) := by
  let ps := properties settings table
  obtain ⟨query, hquery, htype, himports⟩ := exists_importsExactly settings table []
  obtain rfl : (JavaUnit.addAccessors [] table .queryCondition false ps
      (JavaUnit.addFields [] table .queryCondition ps (bare settings table)).value).value = query :=
    ArtifactBody.java.inj (congrArg Artifact.body (List.singleton_inj.1 hquery))
  have hgains := (JavaUnit.gains_addFields table .queryCondition ps (bare settings table)).trans
    (JavaUnit.gains_addAccessors table .queryCondition false ps _)
  have hbare : (bare settings table).types = settings.queryRoot.toList.map .named := by
    rw [bare]
    cases settings.queryRoot <;> rfl
  rw [annotationTypes, List.filter_nil, List.map_nil, List.append_nil] at himports
  refine ⟨_, hquery, ?_⟩
  rw [JavaUnit.unambiguous_iff himports, htype, hgains.namesApart_iff, hbare, mentioned]
  refine JavaUnit.namesApart_congr (fun t ht => .inl ?_) fun t ht => .inl ?_
  · simpa [or_assoc] using ht
  · simpa [or_assoc] using ht

namespace MapperInterface

/-- The types that a mapper interface mentions. -/
def mentioned : List JavaType :=
  (methods table).flatMap (·.2.types)

theorem gains_addMethods (all : List (FragmentId × Method)) (u : JavaUnit) :
    u.Gains (addMethods table [] all u).value (all.flatMap (·.2.types)) := by
  induction all generalizing u with
  | nil => exact .refl u
  | cons entry all ih =>
    obtain ⟨statement, m⟩ := entry
    rw [addMethods, Heard.value_bind, PluginChain.value_offer_nil]
    exact (JavaUnit.gains_addMethod u m.types (fun t ht => .inl (List.mem_append_right _ ht))
      fun t ht => ht).trans (ih _)

/-- **The simple names of a mapper interface** are unambiguous exactly if those
of its statements are apart. -/
theorem exists_unambiguous_iff : ∃ mapper, (generate settings table []).value =
      [.ofUnit .mapperInterface settings.targetProject mapper] ∧
    (mapper.Unambiguous ↔
      JavaUnit.NamesApart table.names.mapperType.qualifiedName (mentioned table)) := by
  obtain ⟨mapper, hmapper, htype, himports⟩ := exists_importsExactly settings table []
  obtain rfl : (addMethods table [] (methods table) (bare table)).value = mapper :=
    ArtifactBody.java.inj (congrArg Artifact.body (List.singleton_inj.1 hmapper))
  rw [annotationTypes, List.filter_nil, List.map_nil, List.append_nil] at himports
  refine ⟨_, hmapper, ?_⟩
  rw [JavaUnit.unambiguous_iff himports, htype,
    (gains_addMethods table (methods table) (bare table)).namesApart_iff]
  rfl

end MapperInterface

/-- **Which tables are written without ambiguity**: those of which each class
mentions types with simple names that are apart. -/
theorem generateTable_unambiguous_iff :
    (∀ a ∈ (generateTable settings [] table Generator.defaults).value, ∀ u, a.body = .java u → u.Unambiguous) ↔
      JavaUnit.NamesApart table.names.recordType.qualifiedName (Record.mentioned settings table) ∧
      JavaUnit.NamesApart table.names.queryType.qualifiedName (QueryCondition.mentioned settings table) ∧
      JavaUnit.NamesApart table.names.mapperType.qualifiedName (MapperInterface.mentioned table) := by
  obtain ⟨record, hrecords, hrecord⟩ := Record.exists_unambiguous_iff settings table
  obtain ⟨query, hqueries, hquery⟩ := QueryCondition.exists_unambiguous_iff settings table
  obtain ⟨mapper, hmappers, hmapper⟩ := MapperInterface.exists_unambiguous_iff settings table
  rw [← hrecord, ← hquery, ← hmapper]
  exact @forall_unit_generateTable_iff settings table [] record query mapper
    hrecords hqueries hmappers
    JavaUnit.Unambiguous

end

/-! ## A date called `Date`, and a list of `List` -/

/-- Under valid settings a table with one column has a class in which a simple
name is ambiguous. -/
def IsAmbiguous (kind : ArtifactKind) (row : RawColumn) : Prop :=
  ({} : Settings).problems = [] ∧ ∃ found table u,
    Introspection.introspectAll {} (Introspection.keylessSource [row])
      ({} : Settings).effectiveSpecs = .ok found ∧
      table ∈ found.value ∧
      .ofUnit kind ({} : Settings).targetProject u
        ∈ (generateTable {} [] table Generator.defaults).value ∧
      ¬ u.Unambiguous

/-- **A record has the name of the type it imports** if a table `date` has a
date, **and a mapper interface imports two types of one name** if its table is
called `list`. -/
theorem not_unambiguous_date :
    IsAmbiguous .record (Introspection.rowOfType "date" "day" 91) ∧
      IsAmbiguous .mapperInterface (Introspection.rowOfType "list" "id" 4) := by
  refine ⟨⟨by decide +kernel, ?_⟩, ⟨by decide +kernel, ?_⟩⟩
  case refine_1 =>
    obtain ⟨found, table, hfound, htable, hheader⟩ := @Introspection.exists_table_of_map _ {}
      (Introspection.keylessSource [Introspection.rowOfType "date" "day" 91])
      (fun table => (Record.generate {} table []).value.map Artifact.header)
      [("com.example.model.Date", ["java.util.Date"])] (by decide +kernel)
    obtain ⟨record, hrecord, -⟩ := Record.exists_unambiguous_iff {} table
    rw [hrecord] at hheader
    obtain ⟨htype, himports⟩ := Prod.mk.inj (List.singleton_inj.1 hheader)
    refine ⟨found, table, record, hfound, htable,
      List.mem_append_left _ (hrecord ▸ List.mem_singleton_self _), ?_⟩
    intro h
    refine h.own "java.util.Date" (himports ▸ List.mem_singleton_self _) ?_
    rw [htype]
    decide +kernel
  case refine_2 =>
    obtain ⟨found, table, hfound, htable, hheader⟩ := @Introspection.exists_table_of_map _ {}
      (Introspection.keylessSource [Introspection.rowOfType "list" "id" 4])
      (fun table => (MapperInterface.generate {} table []).value.map Artifact.header)
      [("com.example.mapper.ListMapper",
        ["com.example.model.List", "com.example.query.ListQC", "java.util.List"])]
      (by decide +kernel)
    obtain ⟨mapper, hmapper, -⟩ := MapperInterface.exists_unambiguous_iff {} table
    rw [hmapper] at hheader
    obtain ⟨-, himports⟩ := Prod.mk.inj (List.singleton_inj.1 hheader)
    have hmem : .ofUnit .mapperInterface ({} : Settings).targetProject mapper ∈
        (generateTable {} [] table Generator.defaults).value :=
      List.mem_append_right _
        (List.mem_append_right _ (List.mem_append_left _ (hmapper ▸ List.mem_singleton_self _)))
    refine ⟨found, table, mapper, hfound, htable, hmem, fun h => ?_⟩
    have hlist : "com.example.model.List" = "java.util.List" :=
      h.imports _ (by rw [himports]; decide) _ (by rw [himports]; decide) (by decide +kernel)
    exact absurd hlist (by decide)

end TableMapper
