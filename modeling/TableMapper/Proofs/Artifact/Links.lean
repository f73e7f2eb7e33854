import TableMapper.Proofs.Artifact.Agreement
import TableMapper.Proofs.Artifact.Assembly

/-!
# Links between fragments

A statement includes pieces by their ids and returns rows through the result
map, and what is found behind an id is only seen when the mapper is loaded.
Of the pieces that are included, the one for paging is the only one that a
table may lack.

**The mapper document of a table is closed under its links**
(`linked_generate`): the ids of its elements are those of fragments, in their
order and each once, and every inclusion and every result map, however deep
it stands, names one of them.
-/

namespace TableMapper

open Markup (Element Node)

/-! ## What links where -/

namespace Markup

/-- **A node contains an element** with a name and attributes, at any depth. -/
inductive Node.Contains (name : String) (attributes : List (String × String)) : Node → Prop
  | here {children : List Node} : Contains name attributes (.element name attributes children)
  | child {outer : String} {others : List (String × String)} {children : List Node} {node : Node}
      (hnode : node ∈ children) (h : Contains name attributes node) :
      Contains name attributes (.element outer others children)

/-- **What a node links to is there**: each inclusion and each result map in
it, at any depth, names something that is `present`. -/
structure Node.Linked (present : String → Prop) (n : Node) : Prop where
  inclusion : ∀ attributes, n.Contains "include" attributes →
    ∃ id, attributes.lookup "refid" = some id ∧ present id
  resultMap : ∀ name attributes, n.Contains name attributes →
    ∀ id, ("resultMap", id) ∈ attributes → present id

/-- What an element other than an inclusion links to is there. -/
structure Element.Linked (present : String → Prop) (e : Element) : Prop where
  name : e.name ≠ "include"
  attributes : ∀ id, ("resultMap", id) ∈ e.attributes → present id
  children : ∀ n ∈ e.children, n.Linked present

section

variable {present : String → Prop} {e inner : Element} {name : String}

theorem Node.Linked.text (s : String) : (Node.text s).Linked present :=
  ⟨fun _ h => (nomatch h), fun _ _ h => (nomatch h)⟩

theorem Element.Linked.toNode (h : e.Linked present) : e.toNode.Linked present where
  inclusion attributes hcontains := by
    change Node.Contains "include" attributes (.element e.name e.attributes e.children) at hcontains
    generalize hname : e.name = name at hcontains
    cases hcontains with
    | here => exact absurd hname h.name
    | child hnode hcontains => exact (h.children _ hnode).inclusion attributes hcontains
  resultMap name attributes hcontains := by
    cases hcontains with
    | here => exact h.attributes
    | child hnode hcontains => exact (h.children _ hnode).resultMap name attributes hcontains

/-- An inclusion of what is there. -/
theorem linked_inclusion {id : FragmentId} (h : present id.name) :
    (Fragments.inclusion id).toNode.Linked present where
  inclusion attributes hcontains := by
    rcases hcontains with _ | ⟨hnode, -⟩
    · exact ⟨id.name, rfl, h⟩
    · exact absurd hnode List.not_mem_nil
  resultMap name attributes hcontains id' hid' := by
    rcases hcontains with _ | ⟨hnode, -⟩
    · obtain ⟨hne, -⟩ := Prod.mk.inj (List.mem_singleton.1 hid')
      exact absurd hne (by decide)
    · exact absurd hnode List.not_mem_nil

namespace Element

theorem linked_named (h : name ≠ "include") : (Element.named name).Linked present :=
  ⟨h, fun _ hid => absurd hid List.not_mem_nil, List.forall_mem_nil _⟩

/-- An attribute links nowhere, but for that of a result map. -/
theorem Linked.attr_of {value : String} (h : e.Linked present)
    (hvalue : "resultMap" = name → present value) :
    (e.attr name value).Linked present where
  name := h.name
  attributes id hid := by
    rcases List.mem_append.1 hid with hid | hid
    · exact h.attributes id hid
    · obtain ⟨hname, rfl⟩ := Prod.mk.inj (List.mem_singleton.1 hid)
      exact hvalue hname
  children := h.children

theorem Linked.attr (h : e.Linked present) (hname : "resultMap" ≠ name) (value : String) :
    (e.attr name value).Linked present :=
  h.attr_of fun hresultMap => absurd hresultMap hname

theorem Linked.attr_resultMap (h : e.Linked present) {value : String} (hvalue : present value) :
    (e.attr "resultMap" value).Linked present :=
  h.attr_of fun _ => hvalue

theorem Linked.child (h : e.Linked present) (hinner : inner.toNode.Linked present) :
    (e.child inner).Linked present :=
  ⟨h.name, h.attributes, List.forall_mem_append.2 ⟨h.children, List.forall_mem_singleton.2 hinner⟩⟩

theorem Linked.text (h : e.Linked present) (s : String) : (e.text s).Linked present :=
  ⟨h.name, h.attributes,
    List.forall_mem_append.2 ⟨h.children, List.forall_mem_singleton.2 (.text s)⟩⟩

end Element

end

end Markup

/-! ## The document -/

namespace MapperDocument

open Fragments Statements

/-- The ids of the children of a root. -/
def rootIds (document : Markup.Document) : List (Option String) :=
  document.root.children.map fun n => n.element?.bind (·.id?)

/-- The clause that orders the rows on demand, if there is a field for it. -/
def orderClause (spec : TableSpec) : List Node :=
  spec.orderByField.toList.map fun field =>
    .element "if" [("test", field ++ " != null")] [.text ("order by $\x7b" ++ field ++ "\x7d")]

/-- The clause for one page of the rows, if both fields for it are there. -/
def pageClause (spec : TableSpec) : List Node :=
  if spec.offsetField.isSome ∧
    spec.limitField.isSome then [.element "include" [("refid", "page-limit")] []] else []

/-- **A mapper document is closed under its links.** -/
structure ClosedUnderLinks (spec : TableSpec) (document : Markup.Document) : Prop where
  /-- The children of the root are fragments in their order. -/
  ids : ∃ ids : List FragmentId, ids.Sublist FragmentId.all ∧
    rootIds document = ids.map (some ·.name)
  distinct : (rootIds document).Nodup
  /-- Inclusions and result maps at any depth name one of them. -/
  linked : document.root.toNode.Linked fun id => some id ∈ rootIds document
  pageLimit : some "page-limit" ∈ rootIds document ↔ spec.offsetField.isSome ∧
    spec.limitField.isSome
  /-- The selection of all rows ends with the page, behind the order, and has
  it nowhere else. -/
  list : spec.enableList = true → ∃ list front, document.root.elementById? "list" = some list ∧
    list.children = front ++ orderClause spec ++ pageClause spec ∧
    ∀ n ∈ front ++ orderClause spec, n.Linked (· ≠ "page-limit")

section

variable (table : TableModel)

/-- The fragments that a table has. -/
def presentIds : List FragmentId :=
  FragmentId.all.filter fun id => (fragment? table id).isSome

theorem rootIds_document : rootIds (document table) = (presentIds table).map (some ·.name) := by
  rw [rootIds, presentIds, document, fragments]
  show ((FragmentId.all.filterMap (fragment? table)).map (·.toNode)).map _ = _
  rw [List.map_map]
  induction FragmentId.all with
  | nil => rfl
  | cons id ids ih =>
    cases hid : fragment? table id with
    | none => simpa [hid] using ih
    | some e => simpa [hid, id?_of_fragment? hid] using ih

/-- **The ids of a document are those of its fragments.** -/
theorem mem_rootIds_document {id : FragmentId} :
    some id.name ∈ rootIds (document table) ↔ (fragment? table id).isSome = true := by
  rw [rootIds_document, List.mem_map]
  constructor
  · rintro ⟨other, hother, hname⟩
    obtain rfl := name_injective (Option.some_inj.1 hname)
    exact (List.mem_filter.1 hother).2
  · exact fun hid => ⟨id, List.mem_filter.2 ⟨FragmentId.mem_all id, hid⟩, rfl⟩

theorem isSome_pageLimit? :
    (fragment? table .pageLimit).isSome = true ↔ table.rules.pagination = true ∧
    table.spec.offsetField.isSome = true ∧ table.spec.limitField.isSome = true := by
  rw [fragment?, pageLimit?]
  cases table.rules.pagination <;> cases table.spec.offsetField <;>
    cases table.spec.limitField <;> simp

variable {table} {id : FragmentId} {e : Element}

/-- **What is assembled links to what it may link to.** -/
theorem Assembled.linked {links : FragmentId → Prop} {present : String → Prop}
    (h : Assembled links e)
    (hlinks : ∀ id, links id → present id.name) : e.Linked present := by
  induction h with
  | @named name hname =>
    have hother : ∀ name ∈ elementNames, name ≠ "include" := by decide
    exact Element.linked_named (hother name hname)
  | @attr e name _ hname value ih =>
    have hother : ∀ name ∈ attributeNames, "resultMap" ≠ name := by decide
    exact ih.attr (hother name hname) value
  | resultMap _ hmap ih => exact ih.attr_resultMap (hlinks _ hmap)
  | text _ s ih => exact ih.text s
  | child _ _ ih ihinner => exact ih.child ihinner.toNode
  | inclusion _ hid ih => exact ih.child (Markup.linked_inclusion (hlinks _ hid))
  | leading _ _ ih ihinner =>
    exact ⟨ih.name, ih.attributes, List.forall_mem_cons.2 ⟨ihinner.toNode, ih.children⟩⟩

/-- **The links of a fragment**: a piece has none, and a statement links to
pieces that every table has, but for the page of a list. -/
theorem linked_of_fragment? {present : String → Prop} (h : fragment? table id = some e)
    (hpieces : ∀ piece ∈
      [FragmentId.resultMap, .baseColumn, .condition, .set, .batchSet, .batchSetValue, .tableName],
      present piece.name)
    (hpage : table.rules.pagination = true → present FragmentId.pageLimit.name) :
    e.Linked present := by
  have hassembled : Assembled (fun piece => present piece.name) e :=
    assembled_of_fragment? h hpieces hpage
  exact hassembled.linked fun _ hpresent => hpresent

/-- A selection includes four pieces, and the page is none of them. -/
theorem linked_ordered (table : TableModel) : (ordered table).Linked (· ≠ "page-limit") := by
  have hassembled : Assembled (fun piece => piece.name ≠ "page-limit") (ordered table) :=
    assembled_ordered table
      (assembled_selectFrom table _ (by decide) (by decide) (by decide) (by decide))
  exact hassembled.linked fun _ hother => hother

theorem children_ordered (horder : table.rules.orderBy = table.spec.orderByField.isSome) :
    (ordered table).children = (selectFrom table .list).children ++ orderClause table.spec := by
  rw [ordered, orderClause, horder]
  cases table.spec.orderByField with
  | none => exact (List.append_nil _).symm
  | some field => rfl

/-- **The parts of a list**: a selection, the order, and the page. -/
theorem children_list? (h : list? table = some e)
    (hpaging : table.rules.pagination = table.spec.paginates) :
    e.children = (ordered table).children ++ pageClause table.spec := by
  rw [list?_eq] at h
  obtain ⟨-, h⟩ := Option.ite_none_right_eq_some.1 h
  cases h
  rw [pageClause]
  simp only [hpaging, TableSpec.paginates, Bool.and_eq_true]
  split
  · rfl
  · exact (List.append_nil _).symm

end

/-! ## Every generated document -/

/-- **The generated mapper document of every table is closed under its
links.** -/
theorem linked_generate {settings : Settings} {spec : TableSpec} {ref : TableRef} {columns : List ColumnModel}
    {remarks : Option String} {table : TableModel}
    (hmodel : TableModel.ofColumns settings spec ref columns remarks = .ok table) :
    ∃ document, (generate settings table fragment? []).value =
        [.ofDocument settings.mapperProject settings.mapperPackage table.names.mapperFile document] ∧
      ClosedUnderLinks spec document := by
  obtain ⟨-, -, hspec, hrules, -⟩ := Introspection.ofColumns_eq_ok hmodel
  subst hspec
  have hpagination : table.rules.pagination = table.spec.paginates := by rw [hrules]; rfl
  have hpresent : some "page-limit" ∈ rootIds (document table) ↔
      table.spec.offsetField.isSome ∧ table.spec.limitField.isSome := by
    rw [show "page-limit" = FragmentId.pageLimit.name from rfl, mem_rootIds_document,
      isSome_pageLimit?, hpagination, TableSpec.paginates, Bool.and_eq_true, and_self_iff]
  refine ⟨document table, value_generate (fun _ => .nil) .nil settings table, ?_, ?_, ?_,
    hpresent, fun hlist => ?_⟩
  case refine_1 => exact ⟨presentIds table, List.filter_sublist, rootIds_document table⟩
  case refine_2 =>
    rw [rootIds_document]
    refine (List.Nodup.filter _ (by decide)).map fun a b hab =>
      name_injective (Option.some_inj.1 hab)
  case refine_3 =>
    refine Element.Linked.toNode
      ⟨show "mapper" ≠ "include" by decide, fun id hid => ?_, fun n hn => ?_⟩
    · exact absurd (Prod.mk.inj (List.mem_singleton.1 hid)).1 (by decide)
    · obtain ⟨e, he, rfl⟩ := List.mem_map.1 hn
      obtain ⟨id, -, hid⟩ := List.mem_filterMap.1 he
      refine (linked_of_fragment? hid (fun piece hpiece => ?_) fun hpaging => ?_).toNode
      · -- pieces do not depend on the rules
        rw [mem_rootIds_document]
        simp only [List.mem_cons, List.not_mem_nil, or_false] at hpiece
        rcases hpiece with rfl | rfl | rfl | rfl | rfl | rfl | rfl <;> rfl
      · rw [hpagination, TableSpec.paginates, Bool.and_eq_true] at hpaging
        exact hpresent.2 hpaging
  case refine_4 =>
    have hwanted : table.rules.list = true := by rw [hrules]; exact hlist
    obtain ⟨list, hlist⟩ : ∃ list, list? table = some list := ⟨_, by rw [list?_eq, if_pos hwanted]⟩
    have horder : table.rules.orderBy = table.spec.orderByField.isSome := by rw [hrules]; rfl
    have hordered := children_ordered horder
    refine ⟨list, (selectFrom table .list).children,
      (elementById?_document table .list).trans hlist, ?_, ?_⟩
    · rw [children_list? hlist hpagination, hordered]
    · rw [← hordered]
      exact (linked_ordered table).children

/-- A table whose lists are ordered and paged. -/
def pagedOrders : TableModel :=
  let spec : TableSpec :=
    { tableName := "orders", domainObjectName := some "Orders", orderByField := some "orderBy",
      offsetField := some "offset", limitField := some "limit" }
  { ordersWith "code" with spec, rules := .ofSpec spec false }

/-- The document of a table with all of the clauses of a list. -/
theorem linked_generate_pagedOrders : ∃ document,
    (generate {} pagedOrders fragment? []).value =
        [.ofDocument "./generated/resources" "mapper" "OrdersMapper.xml" document] ∧
      ClosedUnderLinks pagedOrders.spec document :=
  linked_generate (show TableModel.ofColumns {} pagedOrders.spec (.plain "orders")
    [quotedColumn "code"] none = .ok pagedOrders from rfl)

end MapperDocument

end TableMapper
