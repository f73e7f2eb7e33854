import TableMapper.Proofs.Artifact.Classes
import TableMapper.Proofs.Artifact.StatementProperties
import TableMapper.Proofs.Table.Introspected

/-!
# The artifacts of a table agree

Four generators decide by themselves what they emit. **The methods of the
mapper interface are the statements of the mapper document, less the updates,
with the same parameter and result; and what a statement names is a field of
the class that it takes, or declared by its root class** (`artifacts_agree`).
The second part assumes that the names of the table are plain: a column
called ``a#{b}`` puts a parameter into the list of columns that no class has
a field for (`not_propertiesAgree_orders`).
-/

namespace TableMapper

open Markup (Element Document)

/-! ## What agreement is -/

/-- The elements that can be executed. -/
def IsStatement (e : Element) : Prop :=
  e.name = "select" ∨ e.name = "insert" ∨ e.name = "update"

/-- A statement returns rows through a result map of a type. -/
def ReturnsThroughMap (document : Document) (e : Element) (type : JavaType) : Prop :=
  ∃ id map, e.attribute? "resultMap" = some id ∧ document.root.elementById? id = some map ∧
    map.name = "resultMap" ∧
    map.attribute? "type" = some type.qualifiedName

/-- **A mapper interface agrees with a mapper document**, over records of a
type. -/
structure InterfaceAgrees (mapper : JavaUnit) (record : JavaType) (document : Document) : Prop where
  /-- The methods are the statements, less the updates. -/
  methods : ∀ name, name ∈ mapper.methods.map (·.name) ↔
    (∃ e ∈ document.root.elements, IsStatement e ∧ e.id? = some name) ∧
    name ≠ "update" ∧ name ≠ "batchUpdate"
  /-- No method is declared twice. -/
  distinct : (mapper.methods.map (·.name)).Nodup
  /-- A method takes what its statement takes. -/
  parameter : ∀ m ∈ mapper.methods, ∃ e p, document.root.elementById? m.name = some e ∧
    m.parameters = [p] ∧
    e.attribute? "parameterType" = some p.type.qualifiedName
  /-- A method returns records exactly if its statement has a result map, and
  then it is one of records. -/
  result : ∀ m ∈ mapper.methods, ∃ e, document.root.elementById? m.name = some e ∧
    (ReturnsThroughMap document e record ↔ m.returnType = some record ∨
      m.returnType = some (.listOf record)) ∧
    (e.attribute? "resultMap" ≠ none → ReturnsThroughMap document e record)
  «namespace» : document.root.attribute? "namespace" = some mapper.type.qualifiedName

/-- **The statements of a document name what the classes have**: fields, or
what a root class is expected to declare. -/
structure PropertiesAgree (settings : Settings) (spec : TableSpec) (record query : JavaUnit)
    (document : Document) :
    Prop where
  /-- Selections take the query condition, and name its fields; ordering and
  paging may be left to its root class. -/
  select : ∀ e ∈ document.root.elements, e.name = "select" →
    e.attribute? "parameterType" = some query.type.qualifiedName ∧
      ∀ property, Reference.Refers document [] e.toNode property →
        (∃ f ∈ query.fields, f.name = property) ∨
          settings.queryRoot.isSome = true ∧ property ∈ Reference.pagingFields spec
  /-- The other statements take a record or a list of records, and name its
  fields or what its root class lists. -/
  write : ∀ e ∈ document.root.elements, e.name = "insert" ∨ e.name = "update" →
    ∃ id, e.id? = some (FragmentId.name id) ∧
      e.attribute? "parameterType" = some
        (if Reference.parameterScope id = [] then record.type.qualifiedName else "java.util.List") ∧
      ∀ property, Reference.Refers document (Reference.parameterScope id) e.toNode property →
        (∃ f ∈ record.fields, f.name = property) ∨
          ∃ root ∈ settings.recordRoot, property ∈ root.properties.map Text.trimmed

namespace MapperDocument

/-! ## Attributes of statements -/

section

variable {table : TableModel} {e : Element}

/-- What a statement takes. -/
def parameterType (table : TableModel) : FragmentId → String
  | .list | .getByQc | .count => table.names.queryType.qualifiedName
  | .batchInsert | .batchUpdate => Statements.listType
  | _ => table.names.recordType.qualifiedName

/-- The attributes an insert gets for a generated key. -/
theorem attributes_withGeneratedKey (table : TableModel) (batch : Bool) (e : Element) :
    ∃ more, (Statements.withGeneratedKey table batch e).attributes = e.attributes ++ more ∧
      more.lookup "resultMap" = none := by
  rw [Statements.withGeneratedKey]
  split
  · split
    · exact ⟨_, List.append_assoc _ _ _, rfl⟩
    · split
      · exact ⟨[], (List.append_nil _).symm, rfl⟩
      · exact ⟨[], (List.append_nil _).symm, rfl⟩
  · exact ⟨[], (List.append_nil _).symm, rfl⟩

/-- **What a statement takes**, and the result map of a selection of rows. -/
theorem attributes_statement {id : FragmentId}
    (hid : elementName id = "select" ∨ elementName id = "insert" ∨
      elementName id = "update") (h : fragment? table id = some e) :
    e.attribute? "parameterType" = some (parameterType table id) ∧
      e.attribute? "resultMap" = if id = .list ∨
      id = .getByQc then some "BaseResultMap" else none := by
  have hinsert : ∀ batch id' type, e.attributes =
        (Statements.withGeneratedKey table batch (Reference.insertStart id' type)).attributes →
      e.attribute? "parameterType" = some type ∧ e.attribute? "resultMap" = none := by
    intro batch id' type heq
    obtain ⟨more, hmore, hnone⟩ :=
      attributes_withGeneratedKey table batch (Reference.insertStart id' type)
    rw [Element.attribute?, Element.attribute?, heq, hmore]
    exact ⟨rfl, hnone⟩
  cases id with
  | list =>
    rw [fragment?, list?_eq] at h
    obtain ⟨-, h⟩ := Option.ite_none_right_eq_some.1 h
    cases h
    rw [Element.attribute?, Element.attribute?]
    split
    · rw [Element.attributes_child, attributes_ordered]
      exact ⟨rfl, rfl⟩
    · rw [attributes_ordered]
      exact ⟨rfl, rfl⟩
  | insert =>
    obtain ⟨-, h⟩ := Option.ite_none_right_eq_some.1 h
    cases h
    exact hinsert false _ _ rfl
  | batchInsert =>
    obtain ⟨-, h⟩ := Option.ite_none_right_eq_some.1 h
    cases h
    exact hinsert true _ _ rfl
  | getByQc | count | update | batchUpdate =>
    obtain ⟨-, h⟩ := Option.ite_none_right_eq_some.1 h
    cases h
    exact ⟨rfl, rfl⟩
  | _ => exact absurd hid (by decide)

/-- The rules that want a statement. -/
def wants (rules : Rules) : FragmentId → Bool
  | .list => rules.list
  | .getByQc => rules.getByQc
  | .count => rules.count
  | .insert => rules.insert
  | .batchInsert => rules.batchInsert
  | .update => rules.update
  | .batchUpdate => rules.batchUpdate
  | _ => false

/-- Which statements there are. -/
theorem isSome_fragment? {id : FragmentId}
    (hid : elementName id = "select" ∨ elementName id = "insert" ∨
      elementName id = "update") : (fragment? table id).isSome = wants table.rules id := by
  cases id with
  | list => rw [fragment?, list?_eq, wants]; cases table.rules.list <;> rfl
  | getByQc => rw [fragment?, Statements.getByQc?, wants]; cases table.rules.getByQc <;> rfl
  | count => rw [fragment?, Statements.count?, wants]; cases table.rules.count <;> rfl
  | insert => rw [fragment?, Statements.insert?, wants]; cases table.rules.insert <;> rfl
  | batchInsert =>
    rw [fragment?, Statements.batchInsert?, wants]; cases table.rules.batchInsert <;> rfl
  | update => rw [fragment?, Statements.update?, wants]; cases table.rules.update <;> rfl
  | batchUpdate =>
    rw [fragment?, Statements.batchUpdate?, wants]; cases table.rules.batchUpdate <;> rfl
  | _ => exact absurd hid (by decide)

end

end MapperDocument

/-! ## The interface -/

namespace MapperInterface

variable (settings : Settings) (table : TableModel)

/-- Without plugins the interface has every method. -/
theorem methods_addMethods (methods : List (FragmentId × Method)) (u : JavaUnit) :
    (addMethods table [] methods u).value.methods = u.methods ++ methods.map (·.2) ∧
      (addMethods table [] methods u).value.type = u.type := by
  induction methods generalizing u with
  | nil => exact ⟨(List.append_nil _).symm, rfl⟩
  | cons first rest ih =>
    rw [addMethods, Heard.value_bind, PluginChain.value_offer_nil, (ih _).1, (ih _).2]
    exact ⟨by simp, by simp⟩

theorem exists_generate_nil : ∃ mapper, (generate settings table []).value =
      [.ofUnit .mapperInterface settings.targetProject mapper] ∧
      mapper.type = table.names.mapperType ∧
    mapper.methods = (methods table).map (·.2) := by
  obtain ⟨hmethods, htype⟩ := methods_addMethods table (methods table) (bare table)
  exact ⟨_, rfl, htype, hmethods⟩

/-- The statements that callers may use. -/
def callable : List FragmentId :=
  [.insert, .batchInsert, .count, .getByQc, .list]

/-- The method of a statement. -/
def method : FragmentId → Method
  | .insert => declaration "insert" (.named "int") "record" table.names.recordType
  | .batchInsert => declaration "batchInsert" (.named "int") "list" (.listOf table.names.recordType)
  | .count => declaration "count" (.named "long") "qc" table.names.queryType
  | .getByQc => declaration "getByQc" table.names.recordType "qc" table.names.queryType
  | _ => declaration "list" (.listOf table.names.recordType) "qc" table.names.queryType

/-- **The methods of the interface** are those of the statements wanted. -/
theorem map_methods : (methods table).map (·.2) =
    (callable.filter (MapperDocument.wants table.rules)).map (method table) := by
  have hfilter : ∀ (wanted : FragmentId → Bool) id rest, (id :: rest).filter wanted =
      (if wanted id then [id] else []) ++ rest.filter wanted := by
    intro wanted id rest
    rw [List.filter_cons]
    split <;> rfl
  simp only [methods, callable, hfilter, List.filter_nil, List.append_nil, List.map_append,
    List.append_assoc, apply_ite (List.map Prod.snd), apply_ite (List.map (method table)),
    List.map_cons, List.map_nil]
  rfl

theorem name_method {id : FragmentId} (hid : id ∈ callable) : (method table id).name = id.name := by
  cases id with
  | insert | batchInsert | count | getByQc | list => rfl
  | _ => exact absurd hid (by decide)

/-- The methods that return rows return records. -/
theorem returnType_method_rows {id : FragmentId} (hid : id = .list ∨ id = .getByQc) :
    (method table id).returnType = some table.names.recordType ∨
      (method table id).returnType = some (.listOf table.names.recordType) := by
  rcases hid with rfl | rfl
  · exact .inr rfl
  · exact .inl rfl

/-- The other methods return a number. -/
theorem exists_returnType_method {id : FragmentId} (hid : id ∈ callable)
    (hrows : ¬ (id = .list ∨ id = .getByQc)) :
    ∃ name, '.' ∉ name.toList ∧ (method table id).returnType = some (.named name) := by
  cases id with
  | insert | batchInsert => exact ⟨"int", by decide, rfl⟩
  | count => exact ⟨"long", by decide, rfl⟩
  | list => exact absurd (.inl rfl) hrows
  | getByQc => exact absurd (.inr rfl) hrows
  | _ => exact absurd hid (by decide)

theorem isStatement_of_mem_callable {id : FragmentId} (hid : id ∈ callable) :
    MapperDocument.elementName id = "select" ∨ MapperDocument.elementName id = "insert" ∨
      MapperDocument.elementName id = "update" := by
  revert hid
  cases id <;> decide

/-- Only the updates are statements without a method. -/
theorem mem_callable_iff {id : FragmentId} : id ∈ callable ↔
    (MapperDocument.elementName id = "select" ∨ MapperDocument.elementName id = "insert" ∨
      MapperDocument.elementName id = "update") ∧ id.name ≠ "update" ∧ id.name ≠ "batchUpdate" := by
  cases id <;> decide

theorem name_resultMap : (Fragments.resultMap table).name = "resultMap" := by
  rw [Fragments.resultMap, Element.foldl_child]
  rfl

theorem type_resultMap :
    (Fragments.resultMap table).attribute? "type" = some table.names.recordType.qualifiedName := by
  rw [Element.attribute?, Fragments.resultMap, Element.foldl_child]
  rfl

variable {settings table}

/-- A record class is in a package, and so no simple type, and it is no list
either. -/
theorem ne_recordType {domainObject runtimeTable name : String}
    (hnames : table.names = .ofDomainObject settings domainObject runtimeTable)
    (hname : '.' ∉ name.toList) :
    JavaType.named name ≠ table.names.recordType ∧
    JavaType.named name ≠ .listOf table.names.recordType := by
  refine ⟨fun heq => hname ?_, fun heq => ?_⟩
  · have hqualified : name = settings.modelPackage ++ "." ++ domainObject := by
      have h := congrArg JavaType.qualifiedName heq
      rwa [hnames] at h
    rw [hqualified, String.toList_append, String.toList_append]
    simp
  · cases congrArg JavaType.arguments heq

/-- **The methods are named like the statements**, less the updates. -/
theorem mem_names_iff {name : String} :
    name ∈ (callable.filter (MapperDocument.wants table.rules)).map (·.name) ↔
    (∃ e ∈ (MapperDocument.document table).root.elements, IsStatement e ∧ e.id? = some name) ∧
      name ≠ "update" ∧ name ≠ "batchUpdate" := by
  rw [List.mem_map]
  constructor
  · rintro ⟨id, hid, rfl⟩
    obtain ⟨hid, hwanted⟩ := List.mem_filter.1 hid
    obtain ⟨hstatement, hupdates⟩ := mem_callable_iff.1 hid
    rw [← MapperDocument.isSome_fragment? hstatement, Option.isSome_iff_exists] at hwanted
    obtain ⟨e, he⟩ := hwanted
    refine ⟨⟨e, MapperDocument.mem_elements_document_iff.2 ⟨id, he⟩, ?_,
      MapperDocument.id?_of_fragment? he⟩, hupdates⟩
    rw [IsStatement, MapperDocument.name_of_fragment? he]
    exact hstatement
  · rintro ⟨⟨e, he, hstatement, hname⟩, hupdates⟩
    obtain ⟨id, he⟩ := MapperDocument.mem_elements_document_iff.1 he
    rw [MapperDocument.id?_of_fragment? he, Option.some_inj] at hname
    rw [IsStatement, MapperDocument.name_of_fragment? he] at hstatement
    have hwanted : MapperDocument.wants table.rules id = true := by
      rw [← MapperDocument.isSome_fragment? hstatement, he]
      rfl
    rw [← hname] at hupdates
    exact ⟨id, List.mem_filter.2 ⟨mem_callable_iff.2 ⟨hstatement, hupdates⟩, hwanted⟩, hname⟩

/-- The statement behind a method. -/
theorem exists_statement {m : Method} (hm : m ∈ (methods table).map (·.2)) :
    ∃ id ∈ callable, m = method table id ∧
    ∃ e, MapperDocument.fragment? table id = some e ∧
      (MapperDocument.document table).root.elementById? m.name = some e := by
  rw [map_methods] at hm
  obtain ⟨id, hid, rfl⟩ := List.mem_map.1 hm
  obtain ⟨hid, hwanted⟩ := List.mem_filter.1 hid
  rw [← MapperDocument.isSome_fragment? (isStatement_of_mem_callable hid),
    Option.isSome_iff_exists] at hwanted
  obtain ⟨e, he⟩ := hwanted
  exact ⟨id, hid, rfl, e,
    he, by rw [name_method table hid, MapperDocument.elementById?_document, he]⟩

/-- A statement that names the result map returns records through it. -/
theorem returnsThroughMap_of_attribute? {e : Element}
    (h : e.attribute? "resultMap" = some "BaseResultMap") :
    ReturnsThroughMap (MapperDocument.document table) e table.names.recordType :=
  ⟨_, _, h, MapperDocument.elementById?_document table .resultMap,
    name_resultMap table, type_resultMap table⟩

theorem not_returnsThroughMap {document : Document} {e : Element} {type : JavaType}
    (h : e.attribute? "resultMap" = none) : ¬ ReturnsThroughMap document e type := by
  rintro ⟨id, map, hid, -⟩
  rw [h] at hid
  cases hid

/-- **The interface agrees with the document.** -/
theorem interfaceAgrees {mapper : JavaUnit} {domainObject runtimeTable : String}
    (hnames : table.names = .ofDomainObject settings domainObject runtimeTable)
    (htype : mapper.type = table.names.mapperType)
    (hmethods : mapper.methods = (methods table).map (·.2)) :
    InterfaceAgrees mapper table.names.recordType (MapperDocument.document table) := by
  have hnamesEq : mapper.methods.map (·.name)
      = (callable.filter (MapperDocument.wants table.rules)).map (·.name) := by
    rw [hmethods, map_methods, List.map_map]
    exact List.map_congr_left fun id hid => name_method table (List.mem_filter.1 hid).1
  constructor
  case methods => exact fun name => hnamesEq ▸ mem_names_iff
  case distinct =>
    rw [hnamesEq]
    exact (List.filter_sublist.map _).nodup (by decide : (callable.map (·.name)).Nodup)
  case parameter =>
    intro m hm
    obtain ⟨id, hid, rfl, e, he, helement⟩ := exists_statement (hmethods ▸ hm)
    obtain ⟨hparameter, -⟩ :=
      MapperDocument.attributes_statement (isStatement_of_mem_callable hid) he
    cases id with
    | insert | batchInsert | count | getByQc | list => exact ⟨e, _, helement, rfl, hparameter⟩
    | _ => exact absurd hid (by decide)
  case result =>
    intro m hm
    obtain ⟨id, hid, rfl, e, he, helement⟩ := exists_statement (hmethods ▸ hm)
    obtain ⟨-, hmap⟩ := MapperDocument.attributes_statement (isStatement_of_mem_callable hid) he
    -- only `list` and `getByQc` return records, and only their statements have a result map
    by_cases hrows : id = .list ∨ id = .getByQc
    · rw [if_pos hrows] at hmap
      have hreturns := @returnsThroughMap_of_attribute? table e hmap
      exact ⟨e, helement, iff_of_true hreturns (returnType_method_rows table hrows),
        fun _ => hreturns⟩
    · rw [if_neg hrows] at hmap
      obtain ⟨name, hdot, hreturn⟩ := exists_returnType_method table hid hrows
      have hother := ne_recordType hnames hdot
      rw [hreturn, Option.some_inj, Option.some_inj]
      exact ⟨e, helement, iff_of_false (not_returnsThroughMap hmap) fun h =>
        h.elim hother.1 hother.2, fun h => absurd hmap h⟩
  case «namespace» =>
    show some table.names.mapperNamespace = some mapper.type.qualifiedName
    rw [htype, hnames]
    rfl

end MapperInterface

/-! ## The classes -/

section

variable {settings : Settings} {table : TableModel}

/-- The properties of the query condition are those of columns. -/
theorem queryFieldsOfColumns (h : table.queryFields = table.spec.queryFields table.columns) :
    Reference.QueryFieldsOfColumns table :=
  fun _ hf => TableSpec.exists_column_of_mem_queryFields (h ▸ hf)

/-- **The statements agree with the classes**, if the names of the table are
plain. -/
theorem propertiesAgree {record query : JavaUnit} {front : List Field}
    (hplain : Reference.Plain table)
    (hquery : Reference.QueryFieldsOfColumns table)
    (hrecordType : record.type = table.names.recordType)
    (hrecord : record.fields = front ++ (Record.properties settings table).map (·.field))
    (hqueryType : query.type = table.names.queryType)
    (hfields : query.fields.map (·.name) = table.queryFields.map (·.property) ++
      if settings.queryRoot.isSome then [] else Reference.pagingFields table.spec) :
    PropertiesAgree settings table.spec record query (MapperDocument.document table) := by
  refine ⟨fun e he hname => ?_, fun e he hname => ?_⟩
  case refine_1 =>
    obtain ⟨id, he⟩ := MapperDocument.mem_elements_document_iff.1 he
    rw [MapperDocument.name_of_fragment? he] at hname
    obtain ⟨htype, -⟩ := MapperDocument.attributes_statement (.inl hname) he
    refine ⟨?_, fun property hrefers => ?_⟩
    · rw [htype, hqueryType]
      cases id with
      | list | getByQc | count => rfl
      | _ => exact absurd hname (by decide)
    · have hfield : property ∈ query.fields.map (·.name) → ∃ f ∈ query.fields, f.name = property :=
        List.mem_map.1
      rcases Reference.refersOnly_select hplain hquery hname he property
        hrefers with ⟨f, hf, rfl⟩ | hpaging
      · refine .inl (hfield ?_)
        rw [hfields]
        exact List.mem_append_left _ (List.mem_map_of_mem hf)
      · -- the class has the fields for paging unless a root class is to declare them
        by_cases hroot : settings.queryRoot.isSome = true
        · exact .inr ⟨hroot, hpaging⟩
        · refine .inl (hfield ?_)
          rw [hfields, if_neg hroot]
          exact List.mem_append_right _ hpaging
  case refine_2 =>
    obtain ⟨id, he⟩ := MapperDocument.mem_elements_document_iff.1 he
    rw [MapperDocument.name_of_fragment? he] at hname
    obtain ⟨htype, -⟩ := MapperDocument.attributes_statement (.inr hname) he
    refine ⟨id, MapperDocument.id?_of_fragment? he, ?_, fun property hrefers => ?_⟩
    · rw [htype, hrecordType]
      cases id with
      | insert | update | batchInsert | batchUpdate => rfl
      | _ => exact absurd hname (by decide)
    · obtain ⟨c, hc, rfl⟩ := Reference.refersOnly_write hplain hname he property hrefers
      exact Record.mem_fields_or_listed settings table hrecord hc

end

/-! ## All artifacts of a table -/

/-- What the generators build without plugins. -/
theorem exists_generateTable_nil (settings : Settings) (table : TableModel) : ∃ record query mapper,
    (generateTable settings [] table Generator.defaults).value =
      [.ofUnit .record settings.targetProject record,
        .ofUnit .queryCondition settings.targetProject query,
        .ofUnit .mapperInterface settings.targetProject mapper,
        .ofDocument settings.mapperProject settings.mapperPackage table.names.mapperFile
          (MapperDocument.document table)] ∧
    (record.type = table.names.recordType ∧
      ∃ front, record.fields = front ++ (Record.properties settings table).map (·.field)) ∧
    (query.type = table.names.queryType ∧
      query.fields.map (·.name) = table.queryFields.map (·.property) ++ if settings.queryRoot.isSome
        then [] else Reference.pagingFields table.spec) ∧
    mapper.type = table.names.mapperType ∧
    mapper.methods = (MapperInterface.methods table).map (·.2) := by
  obtain ⟨record, hrecord, hrecordParts⟩ := Record.exists_generate_nil settings table
  obtain ⟨query, hquery, hqueryParts⟩ := QueryCondition.exists_generate_nil settings table
  obtain ⟨mapper, hmapper, hmapperParts⟩ := MapperInterface.exists_generate_nil settings table
  have hvalue := @value_generateTable_of_units settings table [] record query mapper
    hrecord hquery hmapper
  exact ⟨record, query, mapper, hvalue, hrecordParts, hqueryParts, hmapperParts⟩

/-- **The artifacts of a table agree.** -/
theorem artifacts_agree {settings : Settings} {spec : TableSpec} {ref : TableRef} {columns : List ColumnModel}
    {remarks : Option String} {table : TableModel}
    (hmodel : TableModel.ofColumns settings spec ref columns remarks = .ok table) :
    ∃ record query mapper document,
      (generateTable settings [] table Generator.defaults).value =
        [.ofUnit .record settings.targetProject record, .ofUnit .queryCondition settings.targetProject query,
          .ofUnit .mapperInterface settings.targetProject mapper,
          .ofDocument settings.mapperProject settings.mapperPackage table.names.mapperFile document] ∧
      InterfaceAgrees mapper record.type document ∧
      (Reference.Plain table → PropertiesAgree settings spec record query document) := by
  obtain ⟨-, hcolumns, hspec, -, hquery⟩ := Introspection.ofColumns_eq_ok hmodel
  obtain ⟨domainObject, hnames⟩ := Introspection.exists_names_of_ofColumns hmodel
  obtain ⟨record, query, mapper, hartifacts, ⟨hrecordType, front, hrecordFields⟩,
      ⟨hqueryType, hqueryFields⟩, hmapperType, hmethods⟩ := exists_generateTable_nil settings table
  refine ⟨record, query, mapper, MapperDocument.document table, hartifacts, ?_, fun hplain => ?_⟩
  · rw [hrecordType]
    exact MapperInterface.interfaceAgrees hnames hmapperType hmethods
  · rw [← hspec] at hquery ⊢
    rw [← hcolumns] at hquery
    exact propertiesAgree hplain (queryFieldsOfColumns hquery) hrecordType hrecordFields
      hqueryType hqueryFields

/-! ## A column that opens a parameter -/

/-- A quoted column. -/
def quotedColumn (name : String) : ColumnModel :=
  { actualName := name, property := "ab", javaType := .named "java.lang.String", jdbcType := "VARCHAR",
    nullable := true, primaryKey := false, keySequence := 0, largeObject :=
    false, keyGeneration := .notGenerated,
    generatedAlways := false, typeHandler := none, properties := [], remarks :=
    none, defaultValue := none, length := 0,
    scale := 0, delimited := true }

/-- A table with one quoted column. -/
def ordersWith (name : String) : TableModel :=
  let spec : TableSpec := { tableName := "orders", domainObjectName := some "Orders" }
  { table := .plain "orders", remarks := none, columns := [quotedColumn name],
    queryFields := [.ofColumn (quotedColumn name) false], names :=
    .ofDomainObject {} "Orders" "orders",
    rules := .ofSpec spec false, spec }

theorem ofColumns_ordersWith (name : String) :
    TableModel.ofColumns {} (ordersWith name).spec (.plain "orders") [quotedColumn name] none =
      .ok (ordersWith name) :=
  rfl

/-- The artifacts of a table with an ordinary column agree throughout. -/
theorem artifacts_agree_orders : ∃ record query mapper document,
    (generateTable {} [] (ordersWith "a_b") Generator.defaults).value =
      [.ofUnit .record "./generated/java" record, .ofUnit .queryCondition "./generated/java" query,
        .ofUnit .mapperInterface "./generated/java" mapper,
        .ofDocument "./generated/resources" "mapper" "OrdersMapper.xml" document] ∧
      InterfaceAgrees mapper record.type document ∧
      PropertiesAgree {} (ordersWith "a_b").spec record query document := by
  obtain ⟨record, query, mapper, document, hartifacts, hinterface, hproperties⟩ :=
    artifacts_agree (ofColumns_ordersWith "a_b")
  have hplain : Reference.Plain (ordersWith "a_b") := by
    constructor <;> decide
  exact ⟨record, query, mapper, document, hartifacts, hinterface, hproperties hplain⟩

/-- **A column name can open a parameter**: the list of columns of a table
with the column ``a#{b}`` names the property `b`, which the query condition
does not have. -/
theorem not_propertiesAgree_orders : ∃ record query mapper document,
    (generateTable {} [] (ordersWith "a#\x7bb\x7d") Generator.defaults).value =
      [.ofUnit .record "./generated/java" record, .ofUnit .queryCondition "./generated/java" query,
        .ofUnit .mapperInterface "./generated/java" mapper,
        .ofDocument "./generated/resources" "mapper" "OrdersMapper.xml" document] ∧
      query.fields.map (·.name) = ["ab"] ∧
      ¬ PropertiesAgree {} (ordersWith "a#\x7bb\x7d").spec record query document := by
  obtain ⟨record, query, mapper, hartifacts, -, ⟨-, hfields⟩, -⟩ :=
    exists_generateTable_nil {} (ordersWith "a#\x7bb\x7d")
  have hnames : query.fields.map (·.name) = ["ab"] := hfields
  refine ⟨record, query, mapper, _, hartifacts, hnames, fun hagree => ?_⟩
  have hselect : MapperDocument.fragment? (ordersWith "a#\x7bb\x7d") .getByQc =
      some ((Statements.selectFrom (ordersWith "a#\x7bb\x7d") .getByQc).text "limit 1") := rfl
  have hrefers : Reference.Refers (MapperDocument.document (ordersWith "a#\x7bb\x7d")) []
      ((Statements.selectFrom (ordersWith "a#\x7bb\x7d") .getByQc).text "limit 1").toNode "b" :=
    .child (List.mem_cons_of_mem _ List.mem_cons_self) (.inclusion rfl
      (MapperDocument.elementById?_document _ .baseColumn)
      (.child List.mem_cons_self (.parameter (show "b" ∈ _ by decide) rfl)))
  have hreads :=
    hagree.select _ (MapperDocument.mem_elements_document_iff.2 ⟨.getByQc, hselect⟩) rfl
  rcases hreads.2 "b" hrefers with ⟨f, hf, hname⟩ | ⟨hroot, -⟩
  · have hmem := List.mem_map_of_mem (f := (·.name)) hf
    rw [hnames, hname] at hmem
    exact absurd hmem (by decide)
  · cases hroot

end TableMapper
