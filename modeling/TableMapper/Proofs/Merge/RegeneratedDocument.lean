import TableMapper.Proofs.Artifact.Agreement
import TableMapper.Proofs.Artifact.GeneratedDocument
import TableMapper.Proofs.Plugin.Offers

/-!
# Regenerating a document that plugins have edited

Plugins may add anything to the root of a mapper document. Whether a child of
the old root is replaced or kept is decided by its `id` alone, so a child
without `id` that the generator wrote itself passes for a hand-written one:
**every further run keeps it once more** (`IsTree.regenerated_eq`). A document is
stable under its own regeneration exactly if all children of its root have an
`id` (`IsTree.mergeInto_self_eq_iff`), whatever their other attributes are and
whether or not an `id` is repeated.
-/

namespace TableMapper

open Markup (Element Node Document)

namespace Markup

/-! ## Documents that are trees -/

/-- **A document without raw markup**: the children of its root are elements,
with or without `id`, and all names in it are names. -/
structure Document.IsTree (d : Document) : Prop extends d.Writable where
  named : ∀ n ∈ d.root.children, n.WellNamed
  elements : ∀ n ∈ d.root.children, n.element?.isSome = true

/-- A node without `id`. -/
def Node.isAnonymous (n : Node) : Bool :=
  (n.element?.bind (·.id?)).isNone

namespace Document

/-- The children of the root without `id`. -/
def anonymous (d : Document) : List Node :=
  d.root.children.filter (·.isAnonymous)

/-- The document with other children of its root. -/
def withNodes (d : Document) (nodes : List Node) : Document :=
  { d with root := { d.root with children := nodes } }

/-- **The document with its anonymous children repeated** behind it. -/
def repeating (d : Document) (k : Nat) : Document :=
  d.withNodes (d.root.children ++ (List.replicate k d.anonymous).flatten)

/-- **The text of the document after some further runs** that generate it
again, each merged into the text before it. -/
def regenerated (d : Document) : Nat → Except MergeReason String
  | 0 => .ok d.render
  | k + 1 => d.regenerated k >>= d.mergeInto

section

variable {d : Document} {n : Node} {nodes more : List Node}

/-- Only the texts of the children count. -/
theorem render_withNodes_congr (h : nodes.map (Node.render 1) = more.map (Node.render 1)) :
    (d.withNodes nodes).render = (d.withNodes more).render := by
  have hlines : nodes.map (fun n => n.render 1 ++ "\n")
      = more.map (fun n => n.render 1 ++ "\n") := by
    have hlines := congrArg (List.map (· ++ "\n")) h
    rwa [List.map_map, List.map_map] at hlines
  cases nodes with
  | nil =>
    obtain rfl : more = [] := List.map_eq_nil_iff.1 h.symm
    rfl
  | cons n nodes =>
    cases more with
    | nil => cases h
    | cons m more =>
      unfold render withNodes
      dsimp only
      rw [hlines]
      rfl

theorem mem_children_of_mem_repeating {k : Nat} (hn : n ∈ (d.repeating k).root.children) :
    n ∈ d.root.children := by
  rcases List.mem_append.1 hn with hn | hn
  · exact hn
  · obtain ⟨copy, hcopy, hn⟩ := List.mem_flatten.1 hn
    rw [List.eq_of_mem_replicate hcopy] at hn
    exact List.mem_of_mem_filter hn

theorem IsTree.child_of_mem (h : d.IsTree) (hn : n ∈ d.root.children) :
    n.WellNamed ∧ n.element?.isSome = true :=
  ⟨h.named n hn, h.elements n hn⟩

theorem IsTree.withNodes (h : d.IsTree)
    (hnodes : ∀ n ∈ nodes, n.WellNamed ∧ n.element?.isSome = true) :
    (d.withNodes nodes).IsTree where
  root := h.root
  attributes := h.attributes
  publicId := h.publicId
  systemId := h.systemId
  named n hn := (hnodes n hn).1
  elements n hn := (hnodes n hn).2

theorem IsTree.repeating (h : d.IsTree) (k : Nat) : (d.repeating k).IsTree :=
  h.withNodes fun _ hn => h.child_of_mem (mem_children_of_mem_repeating hn)

/-- One more element in the root. -/
theorem IsTree.child (h : d.IsTree) {e : Element} (he : e.toNode.WellNamed) :
    IsTree { d with root := d.root.child e } :=
  h.withNodes (List.forall_mem_append.2
    ⟨fun _ => h.child_of_mem, List.forall_mem_singleton.2 ⟨he, rfl⟩⟩)

/-- **Reading a document that is a tree** gives its children. -/
theorem IsTree.outline (h : d.IsTree) : ∃ tag : Tag, tag.name = d.root.name.toList ∧
    (∀ name, tag.attribute? name = .ok (d.root.attribute? name)) ∧
    Outline.ofDocument d.render
      = ({ roots := [tag], children := d.root.children.map Node.asChild }, none) := by
  have hchild : ∀ n ∈ d.root.children, (n.render 1).toList = ' ' :: ' ' :: n.asChild.text ∧
      n.asChild.Solid :=
    fun n hn => (h.named n hn).solid_asChild (h.elements n hn)
  refine outline_render h.toWritable (fun child hmem => ?_) ?_
  · obtain ⟨n, hn, rfl⟩ := List.mem_map.1 hmem
    exact (hchild n hn).2
  · rw [List.map_map]
    exact List.map_congr_left fun n hn => (hchild n hn).1

/-- A document replaces its own children that have an `id`, and no others. -/
theorem replaces_asChild (hn : n ∈ d.root.children) : d.replaces n.asChild = !n.isAnonymous := by
  rw [replaces, Node.asChild, Node.isAnonymous]
  cases hid : n.element?.bind (·.id?) with
  | none => rfl
  | some id =>
    obtain ⟨e, he, hid⟩ := Option.bind_eq_some_iff.1 hid
    rw [Option.any_some, List.contains_iff_mem.2]
    · rfl
    · exact List.mem_filterMap.2 ⟨e, List.mem_filterMap.2 ⟨n, hn, he⟩, hid⟩

/-- **What a document keeps of its own children**: those without `id`. -/
theorem unreplaced_map_asChild (h : ∀ n ∈ nodes, n ∈ d.root.children) :
    d.unreplaced (nodes.map Node.asChild) = (nodes.filter (·.isAnonymous)).map Node.asChild := by
  rw [unreplaced, List.filter_map]
  refine congrArg _ (List.filter_congr fun n hn => ?_)
  rw [Function.comp_apply, replaces_asChild (h n hn), Bool.not_not]

theorem filter_repeating (k : Nat) :
    (d.repeating k).root.children.filter (·.isAnonymous)
      = (List.replicate (k + 1) d.anonymous).flatten := by
  have hown : d.anonymous.filter (·.isAnonymous) = d.anonymous := by
    rw [anonymous, List.filter_filter]
    simp
  show (d.root.children ++ (List.replicate k d.anonymous).flatten).filter _ = _
  rw [List.filter_append, List.filter_flatten, List.map_replicate, hown,
    List.replicate_succ, List.flatten_cons]
  rfl

/-- A child that is taken over is written like the element that it is. -/
theorem render_withChildren (h : ∀ n ∈ nodes, n.WellNamed ∧ n.element?.isSome = true) :
    (d.withChildren (nodes.map Node.asChild)).render
      = (d.withNodes (d.root.children ++ nodes)).render := by
  have hraw : (((nodes.map Node.asChild).map fun child => String.ofList child.text).map
      Node.raw).map (Node.render 1) =
      nodes.map (Node.render 1) := by
    rw [List.map_map, List.map_map, List.map_map]
    refine List.map_congr_left fun n hn => ?_
    obtain ⟨hnamed, helement⟩ := h n hn
    exact String.toList_inj.1
      ((toList_render_raw n.asChild.text).trans (hnamed.solid_asChild helement).1.symm)
  have hall : (d.root.children ++
      ((nodes.map Node.asChild).map fun child => String.ofList child.text).map Node.raw).map
      (Node.render 1) = (d.root.children ++ nodes).map (Node.render 1) := by
    rw [List.map_append, List.map_append, hraw]
  exact render_withNodes_congr hall

/-- **One more run** keeps the anonymous children once more. -/
theorem IsTree.mergeInto_repeating (h : d.IsTree) (k : Nat) :
    d.mergeInto (d.repeating k).render = .ok (d.repeating (k + 1)).render := by
  obtain ⟨tag, hname, hattribute, houtline⟩ := (h.repeating k).outline
  have hcheck : d.checkRoot tag = .ok () := checkRoot_of_attribute? hname hattribute
  refine mergeInto_eq_ok_iff.2 ⟨_, houtline, ?_, List.cons_ne_nil _ _, ?_⟩
  · show d.checkRoot tag >>= _ = _
    rw [hcheck]
    rfl
  · show _ = (d.withChildren (d.unreplaced ((d.repeating k).root.children.map Node.asChild))).render
    rw [unreplaced_map_asChild fun n => mem_children_of_mem_repeating,
      filter_repeating, render_withChildren]
    · rfl
    · intro n hn
      have hmem : n ∈ (d.repeating (k + 1)).root.children := List.mem_append_right _ hn
      exact (h.repeating (k + 1)).child_of_mem hmem

theorem repeating_zero : d.repeating 0 = d := by
  rw [repeating, List.replicate_zero, List.flatten_nil, List.append_nil]
  rfl

theorem children_repeating_one :
    (d.repeating 1).root.children = d.root.children ++ d.anonymous := by
  show d.root.children ++ [d.anonymous].flatten = _
  rw [List.flatten_singleton]

/-- **Each run repeats the anonymous children once more.** -/
theorem IsTree.regenerated_eq (h : d.IsTree) (k : Nat) :
    d.regenerated k = .ok (d.repeating k).render := by
  induction k with
  | zero => rw [regenerated, repeating_zero]
  | succ k ih =>
    rw [regenerated, ih]
    exact (pure_bind _ _).trans (h.mergeInto_repeating k)

/-- **A document is stable exactly if its children have ids.** -/
theorem IsTree.mergeInto_self_eq_iff (h : d.IsTree) :
    d.mergeInto d.render = .ok d.render ↔ d.anonymous = [] := by
  have honce := h.mergeInto_repeating 0
  rw [repeating_zero] at honce
  rw [honce, Except.ok.injEq]
  constructor
  · -- the text tells how many children there are
    intro hsame
    obtain ⟨_, -, -, houtline⟩ := h.outline
    obtain ⟨_, -, -, hrepeated⟩ := (h.repeating 1).outline
    rw [hsame] at hrepeated
    have hlength := congrArg (·.1.children.length) (hrepeated.symm.trans houtline)
    simp only [children_repeating_one, List.length_map, List.length_append] at hlength
    exact List.eq_nil_of_length_eq_zero (by omega)
  · intro hnone
    have hchildren : (d.repeating 1).root.children = d.root.children := by
      rw [children_repeating_one, hnone, List.append_nil]
    exact congrArg (fun nodes => (d.withNodes nodes).render) hchildren

end

end Document

end Markup

/-! ## Every chain of plugins -/

/-- **The plugins edit documents through the tree**: what they hand back of an
element or of a document has names for names and holds no raw markup, and they
put elements only into the root. -/
structure PluginChain.EditsTree (plugins : PluginChain) : Prop where
  element : ∀ plugin ∈ plugins, ∀ (id : FragmentId) (table : TableModel)
    (e edited : Element), e.WellNamed →
    plugin.judge (.mapperElement id) table e = some edited → edited.WellNamed
  document : ∀ plugin ∈ plugins, ∀ (table : TableModel) (d edited : Document), d.IsTree →
    plugin.judge .mapperDocument table d = some edited → edited.IsTree

/-- What every plugin keeps, a chain of them keeps. -/
theorem PluginChain.edit_keeps {s : Shape} {hook : Hook s} {table : TableModel}
    {plugins : PluginChain}
    {P : s.Carrier → Prop}
    (h : ∀ plugin ∈ plugins, ∀ part edited, P part →
      plugin.judge hook table part = some edited → P edited)
    {part edited : s.Carrier} (hpart : P part)
    (hedit : plugins.edit hook table part = some edited) : P edited := by
  induction plugins generalizing part with
  | nil =>
    obtain rfl : part = edited := Option.some.inj hedit
    exact hpart
  | cons plugin rest ih =>
    obtain ⟨hfirst, hrest⟩ := List.forall_mem_cons.1 h
    rw [edit_cons] at hedit
    obtain ⟨next, hnext, hedit⟩ := Option.bind_eq_some_iff.1 hedit
    exact ih hrest (hfirst part next hpart hnext) hedit

namespace MapperDocument

/-- What adding an approved fragment keeps, adding all of them keeps. -/
theorem addFragments_keeps {table : TableModel} {plugins : PluginChain}
    {build : Builder} (P : Element → Prop)
    (h : ∀ id element approved root, build table id = some element →
      plugins.edit (.mapperElement id) table element = some approved → P root →
      P (root.child approved))
    {ids : List FragmentId} {root : Element} (hroot : P root) :
    P (addFragments table plugins build ids root).value := by
  induction ids generalizing root with
  | nil => exact hroot
  | cons id ids ih =>
    rw [addFragments]
    cases hbuild : build table id with
    | none => exact ih hroot
    | some element =>
      have hvalue : (plugins.offer table (.mapperElement id) element).value =
          plugins.edit (.mapperElement id) table element :=
        plugins.snd_ask (.mapperElement id) table element
      dsimp only
      rw [Heard.value_bind, hvalue]
      refine ih ?_
      cases hedit : plugins.edit (.mapperElement id) table element with
      | none => exact hroot
      | some approved => exact h id element approved root hbuild hedit hroot

variable {plugins : PluginChain}

/-- A root that is that of a mapper document which is a tree. -/
def RootIsTree (root : Element) : Prop :=
  ({ root, publicId := some publicId, systemId := some systemId } : Document).IsTree

/-- **Every generated document is a tree**, if the plugins leave it one. -/
theorem exists_isTree (h : plugins.EditsTree) (settings : Settings)
    (table : TableModel) {a : Artifact}
    (ha : a ∈ (generate settings table fragment? plugins).value) :
    ∃ d : Document, d.IsTree ∧
      a = .ofDocument settings.mapperProject settings.mapperPackage table.names.mapperFile d := by
  rw [generate] at ha
  simp only [Heard.value_bind, Heard.value_pure, List.mem_map, Option.mem_toList] at ha
  obtain ⟨d, hd, rfl⟩ := ha
  refine ⟨d, ?_, rfl⟩
  have hstart : RootIsTree
      ((Element.named "mapper").attr "namespace" table.names.mapperNamespace) := by
    obtain ⟨hname, hattributes, hpublic, hsystem⟩ := (generated_document table).toWritable
    exact ⟨⟨hname, hattributes, hpublic, hsystem⟩, List.forall_mem_nil _, List.forall_mem_nil _⟩
  -- first each fragment is offered by itself, then the document as a whole
  have hfragments : RootIsTree (addFragments table plugins fragment? FragmentId.all
      ((Element.named "mapper").attr "namespace" table.names.mapperNamespace)).value :=
    addFragments_keeps RootIsTree
      (fun id element approved root hbuild hedit hroot => Document.IsTree.child hroot
      (PluginChain.edit_keeps (fun plugin hplugin => h.element plugin hplugin id table)
        (wellNamed_of_fragment? hbuild) hedit).toNode) hstart
  exact PluginChain.edit_keeps (fun plugin hplugin => h.document plugin hplugin table) hfragments
    ((plugins.snd_ask .mapperDocument table _).symm.trans hd)

/-- **What becomes of a mapper document that plugins have edited**, run after
run: its children without `id` are repeated in every run, and so it is stable
exactly if there are none. -/
theorem regenerated_generate (h : plugins.EditsTree) (settings : Settings) (table : TableModel) {a : Artifact}
    (ha : a ∈ (generate settings table fragment? plugins).value) :
    ∃ d : Document, a = .ofDocument settings.mapperProject settings.mapperPackage table.names.mapperFile d ∧
      (∀ k, d.regenerated k = .ok (d.repeating k).render) ∧
      (d.mergeInto d.render = .ok d.render ↔ d.anonymous = []) := by
  obtain ⟨d, htree, ha⟩ := exists_isTree h settings table ha
  exact ⟨d, ha, htree.regenerated_eq, htree.mergeInto_self_eq_iff⟩

/-! ## An element that a plugin pushes -/

/-- Pushes an element to the root of mapper documents. -/
def push (e : Element) : {s : Shape} → Hook s → s.Carrier → Option s.Carrier
  | _, .mapperDocument, d => some { d with root := d.root.child e }
  | _, _, part => some part

/-- The plugin that pushes an element to the root of mapper documents. -/
def pushing (e : Element) : Plugin where
  name := "pushing"
  judge hook _ part := push e hook part

/-- The document of a table with one more element. -/
def documentWith (table : TableModel) (e : Element) : Document :=
  { document table with root := (document table).root.child e }

theorem editsTree_pushing {e : Element} (he : e.WellNamed) : PluginChain.EditsTree [pushing e] where
  element := by
    refine List.forall_mem_singleton.2 fun id table e' edited hnamed hedit => ?_
    obtain rfl : e' = edited := Option.some.inj hedit
    exact hnamed
  document := by
    refine List.forall_mem_singleton.2 fun table d edited htree hedit => ?_
    obtain rfl : { d with root := d.root.child e } = edited := Option.some.inj hedit
    exact htree.child he.toNode

theorem value_generate_pushing (e : Element) (settings : Settings) (table : TableModel) :
    (generate settings table fragment? [pushing e]).value =
      [.ofDocument settings.mapperProject settings.mapperPackage table.names.mapperFile
        (documentWith table e)] := by
  have helement : ∀ id, PluginChain.Passes [pushing e] (.mapperElement id) :=
    fun id => List.forall_mem_singleton.2 fun table part => rfl
  rw [generate]
  simp only [Heard.value_bind, Heard.value_pure, value_addFragments helement]
  rfl

/-- All fragments have ids. -/
theorem anonymous_documentWith (table : TableModel) (e : Element) :
    (documentWith table e).anonymous = [e.toNode].filter (·.isAnonymous) := by
  have hfragments : ((fragments table).map (·.toNode)).filter (·.isAnonymous) = [] := by
    refine List.filter_eq_nil_iff.2 fun n hn => ?_
    obtain ⟨f, hf, rfl⟩ := List.mem_map.1 hn
    obtain ⟨id, -, hid⟩ := List.mem_filterMap.1 hf
    rw [Node.isAnonymous, Node.element?_toNode, Option.bind_some, id?_of_fragment? hid]
    exact Bool.false_ne_true
  show ((fragments table).map (·.toNode) ++ [e.toNode]).filter _ = _
  rw [List.filter_append, hfragments, List.nil_append]

/-- An element with an `id` stays as it is, here with the `id` of a fragment
and one more attribute of that name. -/
theorem regenerated_generate_sql : ∃ d : Document,
    (generate {} (ordersWith "code") fragment? [pushing (((Element.named "sql").attr "id" "qc").attr "id" "x")]).value =
        [.ofDocument "./generated/resources" "mapper" "OrdersMapper.xml" d] ∧
      d.mergeInto d.render = .ok d.render := by
  have hvalue := value_generate_pushing (((Element.named "sql").attr "id" "qc").attr "id" "x")
    {} (ordersWith "code")
  obtain ⟨d, ha, -, hstable⟩ := regenerated_generate (editsTree_pushing
    (((Element.wellNamed_named (show Markup.IsName "sql" by decide)).attr
      (show Markup.IsName "id" by decide) "qc").attr (show Markup.IsName "id" by decide) "x")) {}
        (ordersWith "code") (hvalue ▸ List.mem_singleton_self _)
  obtain rfl : documentWith _ _ = d := ArtifactBody.markup.inj (congrArg Artifact.body ha)
  refine ⟨_, hvalue, hstable.2 ?_⟩
  rw [anonymous_documentWith]
  rfl

/-- **An element without `id` is doubled by the next run**, and once more by
each one behind it. -/
theorem not_stable_cache : PluginChain.EditsTree [pushing (Element.named "cache")] ∧ ∃ d : Document,
    (generate {} (ordersWith "code") fragment? [pushing (Element.named "cache")]).value =
        [.ofDocument "./generated/resources" "mapper" "OrdersMapper.xml" d] ∧
      d.anonymous = [(Element.named "cache").toNode] ∧
      d.mergeInto d.render = .ok (d.repeating 1).render ∧ d.mergeInto d.render ≠ .ok d.render := by
  have hedits := editsTree_pushing (Element.wellNamed_named (show Markup.IsName "cache" by decide))
  have hvalue := value_generate_pushing (Element.named "cache") {} (ordersWith "code")
  have hanonymous := anonymous_documentWith (ordersWith "code") (Element.named "cache")
  obtain ⟨d, htree, ha⟩ :=
    exists_isTree hedits {} (ordersWith "code") (hvalue ▸ List.mem_singleton_self _)
  obtain rfl : documentWith _ _ = d := ArtifactBody.markup.inj (congrArg Artifact.body ha)
  have honce := htree.mergeInto_repeating 0
  rw [Document.repeating_zero] at honce
  refine ⟨hedits, _, hvalue, hanonymous, honce, fun hstable => ?_⟩
  exact absurd (hanonymous.symm.trans (htree.mergeInto_self_eq_iff.1 hstable))
    (List.cons_ne_nil _ _)

end MapperDocument

end TableMapper
