import TableMapper.Merge.Document
import TableMapper.Proofs.Markup.ChildText

/-!
# A merge keeps what was written by hand

Merging a fresh document into an existing one **keeps every child of the
existing root that the fresh document does not replace**, verbatim and in
order, and keeps nothing else; **merging once more changes nothing**
(`mergeInto_kept`). Both follow from one description of a root, by its items
(`Item.children`): the existing root is read as the children that its items
make up, and the merged document as the fresh children and the kept ones.

This holds of documents without byte order mark. A mark is skipped when the
document is read, but not when its children are cut out of it, so that what
is kept is displaced (`mergeInto_mark`).
-/

namespace TableMapper.Markup

/-!
## When a merge into a document succeeds

A merge is the composition of three things that are spoken of apart: the
outline of the existing document, the check of its root, and the writing of
the fresh document with the children that are kept. **A merge succeeds
exactly when the outline is complete and its roots are those of the fresh
document** (`mergeInto_eq_ok_iff`), and then it writes the fresh document
with the children that it does not replace.
-/

section

variable {fresh : Document} {existing : String}

/-- The children of an outline that a fresh document does not replace. -/
def Document.unreplaced (fresh : Document) (children : List Outline.Child) : List Outline.Child :=
  children.filter (!fresh.replaces ·)

/-- The fresh document with further children, as they stand. -/
def Document.withChildren (fresh : Document) (children : List Outline.Child) : Document :=
  fresh.withRaw (children.map fun child => String.ofList child.text)

theorem kept_eq_ok_iff {kept : List Outline.Child} :
    fresh.kept existing = .ok kept ↔
      ∃ o, Outline.ofDocument existing = (o, none) ∧ o.roots.forM fresh.checkRoot = .ok () ∧
        o.roots ≠ [] ∧ kept = fresh.unreplaced o.children := by
  rw [Document.kept]
  rcases Outline.ofDocument existing with ⟨o, fault⟩
  -- the roots are checked first, then a fault of the outline counts, then that there is a root at
  -- all
  cases hcheck : o.roots.forM fresh.checkRoot with
  | error reason =>
    simp only [hcheck]
    constructor
    · rintro ⟨⟩
    · rintro ⟨_, ⟨⟩, hok, -⟩
      simp [hcheck] at hok
  | ok _ =>
    cases fault with
    | some fault =>
      simp only [hcheck]
      constructor
      · rintro ⟨⟩
      · rintro ⟨_, ⟨⟩, -⟩
    | none =>
      simp only [hcheck]
      cases hroots : o.roots with
      | nil =>
        constructor
        · rintro ⟨⟩
        · rintro ⟨_, ⟨⟩, -, hne, -⟩
          exact absurd hroots hne
      | cons root more =>
        constructor
        · intro h
          exact ⟨o, rfl, hcheck, by simp [hroots], (Except.ok.inj h).symm⟩
        · rintro ⟨_, ⟨⟩, -, -, rfl⟩
          rfl

/-- **When a merge succeeds**, and what it writes. -/
theorem mergeInto_eq_ok_iff {merged : String} :
    fresh.mergeInto existing = .ok merged ↔
      ∃ o, Outline.ofDocument existing = (o, none) ∧ o.roots.forM fresh.checkRoot = .ok () ∧
        o.roots ≠ [] ∧ merged = (fresh.withChildren (fresh.unreplaced o.children)).render := by
  have hkept : fresh.mergeInto existing = .ok merged ↔
      ∃ kept, fresh.kept existing = .ok kept ∧ merged = (fresh.withChildren kept).render := by
    rw [Document.mergeInto]
    cases fresh.kept existing with
    | error reason => simp [bind, Except.bind]
    | ok kept => simp [bind, Except.bind, pure, Except.pure, Document.withChildren, eq_comm]
  rw [hkept]
  constructor
  · rintro ⟨_, h, rfl⟩
    obtain ⟨o, ho, hcheck, hne, rfl⟩ := kept_eq_ok_iff.1 h
    exact ⟨o, ho, hcheck, hne, rfl⟩
  · rintro ⟨o, ho, hcheck, hne, rfl⟩
    exact ⟨_, kept_eq_ok_iff.2 ⟨o, ho, hcheck, hne, rfl⟩, rfl⟩

/-! ### Reading the existing document -/

/-- A complete outline is that of all the events. -/
theorem Outline.run_of_ofDocument {o : Outline} (ho : ofDocument existing = (o, none)) :
    run {} (Reading.ofDocument existing).events = (o, none) ∧
      (Reading.ofDocument existing).malformed = none := by
  rw [ofDocument] at ho
  obtain ⟨houtline, hfault⟩ := Prod.mk.inj ho
  obtain ⟨hnone, hmalformed⟩ := Option.or_eq_none_iff.1 hfault
  exact ⟨Prod.ext houtline hnone, Option.map_eq_none_iff.1 hmalformed⟩

end

/-! ## Documents that are generated -/

/-- **A document that is generated**: all names in it are names, it holds no
raw markup, the identifiers of its type hold no brackets, and every child of
its root is an element with an `id`. -/
structure Document.Generated (d : Document) : Prop extends d.Writable where
  named : ∀ n ∈ d.root.children, n.WellNamed
  identified : ∀ n ∈ d.root.children, ∃ e id, n.element? = some e ∧ e.id? = some id

section

variable {fresh : Document} {existing merged : String} {root : Tag} {items : List Item}

/-! ### The children of an existing root -/

theorem Reads.ne_nil {f : Found} {fs : List Found} {cs rest : List Char}
    (h : Reads cs (f :: fs) rest) : cs ≠ [] := by
  cases h with
  | cons start hpiece _ =>
    obtain ⟨hcut, hne⟩ := piece_append hpiece
    rw [← hcut]
    exact fun hnil => hne (List.append_eq_nil_iff.1 hnil).1

/-- The children of a root that has been read stand on their own. -/
theorem Rooted.solid {cs rest : List Char} {fs : List Found} (h : Rooted fs root items)
    (hreads : Reads cs fs rest) (hlegible : ∀ item ∈ items, item.Legible) :
    ∀ child ∈ Item.children items, child.Solid := by
  cases h with
  | content hbefore hstart hcontent hstop hbehind =>
    obtain ⟨mid, -, hroot⟩ := hreads.split
    cases hroot with
    | cons start _ htail =>
      obtain ⟨back, hinner, hback⟩ := htail.split
      intro child hchild
      exact solid_of_mem hinner hback.ne_nil hcontent hlegible hchild
  | empty hbefore hevent hbehind =>
    intro child hchild
    simp [Item.children, Item.groups, Item.child?, Item.own] at hchild

/-- **The outline of an existing document** has the children that the items
of its root make up, and each of them stands on its own. -/
theorem Rooted.outline (hmark : existing.toList.head? ≠ some '\uFEFF')
    (hrooted : Rooted (Reading.ofDocument existing).events root items) {o : Outline}
    (ho : Outline.ofDocument existing = (o, none)) :
    o.children = Item.children items ∧ ∀ child ∈ o.children, child.Solid := by
  obtain ⟨rest, hreads, -⟩ := Reading.reads_ofText 0 existing.toList
  obtain ⟨hrun, -⟩ := Outline.run_of_ofDocument ho
  rw [Reading.ofDocument_of_ne hmark] at hrooted hrun
  have hlegible := Outline.legible_of_run hrooted hrun
  rw [Outline.run_of_rooted hrooted hlegible] at hrun
  obtain rfl := (Prod.mk.inj hrun).1
  exact ⟨rfl, hrooted.solid hreads hlegible⟩

/-! ### The children of the merged document -/

/-- **A node as a child of a root**, as it is read back when it has been
written. -/
def Node.asChild (n : Node) : Outline.Child :=
  ⟨n.element?.bind (·.id?), (n.render 1).toList.drop 2⟩

/-- A written element is read back as a child. -/
theorem Node.WellNamed.solid_asChild {n : Node} (h : n.WellNamed)
    (helement : n.element?.isSome = true) :
    (n.render 1).toList = ' ' :: ' ' :: n.asChild.text ∧ n.asChild.Solid := by
  cases h with
  | text s => cases helement
  | @element name attributes children hname hattributes hchildren =>
    obtain ⟨behind, cs, hbehind, htext, hrender⟩ :=
      exists_element hname hattributes 1 fun m hm => (hchildren m hm).passes 2
    have hchild : (Node.element name attributes children).asChild
        = ⟨attributes.lookup "id", '<' :: cs⟩ := by
      rw [asChild, hrender]
      rfl
    rw [hchild]
    exact ⟨hrender, htext.solid (attribute?_written hattributes hbehind name "id")⟩

/-- A generated child is written, and read back as a child that the document
replaces. -/
theorem Document.Generated.exists_child (h : fresh.Generated) {n : Node}
    (hn : n ∈ fresh.root.children) :
    ∃ child : Outline.Child, (n.render 1).toList = ' ' :: ' ' :: child.text ∧ child.Solid ∧
      fresh.replaces child = true := by
  obtain ⟨e, id, helement, hid⟩ := h.identified n hn
  obtain ⟨hrender, hsolid⟩ := (h.named n hn).solid_asChild (by rw [helement]; rfl)
  refine ⟨n.asChild, hrender, hsolid, ?_⟩
  rw [Document.replaces, Document.ids, Node.asChild, helement]
  show e.id?.any (List.filterMap (·.id?) fresh.root.elements).contains = true
  rw [hid, Option.any_some, List.contains_iff_mem, List.mem_filterMap]
  exact ⟨e, List.mem_filterMap.2 ⟨n, hn, helement⟩, hid⟩

theorem exists_children {nodes : List Node} {P : Outline.Child → Prop}
    (h : ∀ n ∈ nodes, ∃ child : Outline.Child, (n.render 1).toList = ' ' :: ' ' :: child.text ∧
      P child) :
    ∃ children : List Outline.Child, (∀ child ∈ children, P child) ∧
      nodes.map (fun n => (n.render 1).toList)
        = children.map fun child => ' ' :: ' ' :: child.text := by
  induction nodes with
  | nil => exact ⟨[], by simp, rfl⟩
  | cons n nodes ih =>
    obtain ⟨child, hrender, hchild⟩ := h n List.mem_cons_self
    obtain ⟨children, hchildren, htexts⟩ := ih fun m hm => h m (List.mem_cons_of_mem _ hm)
    exact ⟨child :: children, List.forall_mem_cons.2 ⟨hchild, hchildren⟩, by
      rw [List.map_cons, List.map_cons, hrender, htexts]⟩

/-- Writing further children does not change how the root and the type are
written. -/
theorem Document.Writable.withChildren (h : fresh.Writable) (kept : List Outline.Child) :
    (fresh.withChildren kept).Writable :=
  ⟨h.root, h.attributes, h.publicId, h.systemId⟩

/-- A child taken over is written as it stands. -/
theorem toList_render_raw (text : List Char) :
    (Node.render 1 (.raw (String.ofList text))).toList = ' ' :: ' ' :: text := by
  rw [Node.render, String.toList_append, String.toList_ofList, toList_indent]
  rfl

/-- The root of a document that was written from a fresh one is the right
one. -/
theorem checkRoot_of_attribute? {tag : Tag} (hname : tag.name = fresh.root.name.toList)
    (hattribute : ∀ name, tag.attribute? name = .ok (fresh.root.attribute? name)) :
    fresh.checkRoot tag = .ok () := by
  simp [Document.checkRoot, hname, hattribute]

/-- **The outline of a generated document with further children**: those it
replaces, and the further ones. -/
theorem Document.Generated.outline_withChildren (h : fresh.Generated)
    {children : List Outline.Child} (hsolid : ∀ child ∈ children, child.Solid) :
    ∃ o, Outline.ofDocument (fresh.withChildren (fresh.unreplaced children)).render = (o, none) ∧
      o.roots.forM fresh.checkRoot = .ok () ∧ o.roots ≠ [] ∧
      fresh.unreplaced o.children = fresh.unreplaced children := by
  obtain ⟨generated, hgenerated, htexts⟩ := exists_children (fun n hn => h.exists_child hn)
  have hall : ∀ child ∈ generated ++ fresh.unreplaced children, child.Solid := by
    intro child hchild
    rcases List.mem_append.1 hchild with hmem | hmem
    · exact (hgenerated child hmem).1
    · exact hsolid child (List.mem_of_mem_filter hmem)
  have hwritten : (fresh.withChildren (fresh.unreplaced children)).root.children.map
        (fun n => (n.render 1).toList)
      = (generated ++ fresh.unreplaced children).map fun child => ' ' :: ' ' :: child.text := by
    show (fresh.root.children ++ _).map _ = _
    rw [List.map_append, List.map_append, htexts, List.map_map, List.map_map]
    refine congrArg _ (List.map_congr_left fun child _ => ?_)
    exact toList_render_raw child.text
  obtain ⟨tag, hname, hattribute, houtline⟩ :=
    outline_render (h.toWritable.withChildren _) hall hwritten
  -- every child that was generated has an id, by which a fresh one replaces it
  have hreplaced : fresh.unreplaced generated = [] := by
    rw [Document.unreplaced, List.filter_eq_nil_iff]
    intro child hchild
    simp [(hgenerated child hchild).2]
  have hcheck : fresh.checkRoot tag = .ok () := checkRoot_of_attribute? hname hattribute
  refine ⟨_, houtline, ?_, List.cons_ne_nil _ _, ?_⟩
  · show fresh.checkRoot tag >>= _ = _
    rw [hcheck]
    rfl
  · show fresh.unreplaced (generated ++ fresh.unreplaced children) = _
    rw [Document.unreplaced, List.filter_append, ← Document.unreplaced, hreplaced, List.nil_append,
      Document.unreplaced, List.filter_filter]
    simp

/-- **A merge keeps what was written by hand**, and merging once more
changes nothing. -/
theorem mergeInto_kept (hfresh : fresh.Generated) (hmark : existing.toList.head? ≠ some '\uFEFF')
    (hrooted : Rooted (Reading.ofDocument existing).events root items)
    (hmerge : fresh.mergeInto existing = .ok merged) :
    merged = (fresh.withChildren (fresh.unreplaced (Item.children items))).render ∧
      fresh.mergeInto merged = .ok merged := by
  obtain ⟨o, ho, -, -, hmerged⟩ := mergeInto_eq_ok_iff.1 hmerge
  obtain ⟨hchildren, hsolid⟩ := hrooted.outline hmark ho
  rw [hchildren] at hmerged hsolid
  obtain ⟨o', ho', hcheck, hne, hkept⟩ := hfresh.outline_withChildren hsolid
  rw [← hmerged] at ho'
  rw [← hkept] at hmerged ⊢
  exact ⟨hmerged, mergeInto_eq_ok_iff.2 ⟨o', ho', hcheck, hne, hmerged⟩⟩

/-- A mapper with one fragment. -/
def Document.tableNameMapper : Document :=
  { root :=
      { name := "mapper"
        attributes := [("namespace", "a.OrdersMapper")]
        children := [.element "sql" [("id", "tableName")] [.text "orders"]] } }

theorem generated_tableNameMapper : Document.tableNameMapper.Generated where
  root := ⟨by decide, by decide⟩
  attributes := List.forall_mem_singleton.2 ⟨by decide, by decide⟩
  publicId := by simp [Document.tableNameMapper]
  systemId := by simp [Document.tableNameMapper]
  named := by
    refine List.forall_mem_singleton.2 (.element ⟨by decide, by decide⟩ ?_ ?_)
    · exact List.forall_mem_singleton.2 ⟨by decide, by decide⟩
    · exact List.forall_mem_singleton.2 (.text _)
  identified := List.forall_mem_singleton.2 ⟨_, "tableName", rfl, rfl⟩

/-- A hand-written child with the comment above it is taken over, and stays
where it is when the document is generated again. -/
theorem mergeInto_kept_cache :
    Document.tableNameMapper.mergeInto
        (Document.tableNameMapper.withChildren
          [⟨none, "<!-- shared -->\n<cache />".toList⟩]).render
      = .ok (Document.tableNameMapper.withChildren
          [⟨none, "<!-- shared -->\n<cache />".toList⟩]).render := by
  have hevents : (Reading.ofDocument
        "<mapper namespace=\"a.OrdersMapper\">\n<!-- shared -->\n<cache />\n</mapper>").events
      = [] ++ ⟨.opening ⟨"mapper".toList, " namespace=\"a.OrdersMapper\"".toList⟩, 0,
          "<mapper namespace=\"a.OrdersMapper\">".toList⟩ ::
        ([⟨.text ['\n'], 35, ['\n']⟩, ⟨.comment, 36, "<!-- shared -->".toList⟩,
          ⟨.text ['\n'], 51, ['\n']⟩, ⟨.empty ⟨"cache".toList, [' ']⟩, 52, "<cache />".toList⟩,
          ⟨.text ['\n'], 61, ['\n']⟩] ++
        ⟨.closing "mapper".toList, 62, "</mapper>".toList⟩ :: []) := by
    decide +kernel
  obtain ⟨root, items, hrooted⟩ : ∃ root items, Rooted (Reading.ofDocument
      "<mapper namespace=\"a.OrdersMapper\">\n<!-- shared -->\n<cache />\n</mapper>").events
      root items := by
    rw [hevents]
    exact ⟨_, _, .content (List.forall_mem_nil _) rfl
      (.data rfl (.comment rfl (.data rfl (.empty rfl (.data rfl .nil))))) rfl
        (List.forall_mem_nil _)⟩
  exact (mergeInto_kept generated_tableNameMapper (by decide +kernel) hrooted (by decide +kernel)).2

/-- **A byte order mark displaces what is kept**: instead of the element the
text in front of it is taken over, and the result is no document. -/
theorem mergeInto_mark :
    Document.tableNameMapper.mergeInto
        "\uFEFF<mapper namespace=\"a.OrdersMapper\">\n  <cache />\n</mapper>\n"
      = .ok (Document.tableNameMapper.withChildren [⟨none, "\n  <cache".toList⟩]).render ∧
    Document.tableNameMapper.mergeInto
        (Document.tableNameMapper.withChildren [⟨none, "\n  <cache".toList⟩]).render
      = .error .attribute := by
  decide +kernel

end

end TableMapper.Markup
