import TableMapper.Proofs.Markup.WrittenNode

/-!
# The outline of a document that has been written

**Reading a written document gives the children it was written with**
(`outline_render`): neither the blank lines between them nor what stands in
front of the root and behind it adds a child, removes one or changes one.
This holds of children that are elements and of children that were taken
over as they stood in another document, as long as each of them is one
child of a root and nothing else (`Outline.Child.Solid`).
-/

namespace TableMapper.Markup

/-! ## Items that are one child -/

/-- **Items that make up one child of a root**, and nothing else: they begin
with the child, nothing separates them, and an element ends them. -/
structure Item.Whole (items : List Item) : Prop where
  begins : ∃ first rest, items = first :: rest ∧ first.begins = true
  joined : ∀ item ∈ items, item.separates = false
  ended : ∀ item ∈ items.dropLast, item.isElement = false

namespace Item

variable {items : List Item} {child : Outline.Child} {blanks : List Char}

theorem Whole.own (h : Whole items) : own items = items := by
  obtain ⟨first, rest, rfl, hfirst⟩ := h.begins
  rw [Item.own, List.dropWhile_cons_of_neg (by simp [hfirst])]

theorem Whole.ne_nil (h : Whole items) : items ≠ [] := by
  obtain ⟨first, rest, rfl, -⟩ := h.begins
  exact List.cons_ne_nil _ _

/-- Character data in front of the first child belongs to none. -/
theorem children_cons_data (text : List Char) (items : List Item) :
    children (.data text :: items) = children items := by
  rw [children, children, groups]
  by_cases hseparates : Outline.separates text = true
  · simp only [isElement, separates, hseparates, Bool.false_eq_true, if_false, if_true]
    rw [List.filterMap_cons]
    rfl
  · obtain ⟨group, more, hgroups⟩ := List.exists_cons_of_ne_nil (groups_ne_nil items)
    have hown : child? (.data text :: group) = child? group := by
      rw [child?, child?, own, List.dropWhile_cons_of_pos rfl, own]
    simp [isElement, separates, hseparates, hgroups, List.filterMap_cons, hown]

/-- **One child in front of others**, if the blanks between them separate
them. -/
theorem children_append_whole (h : Whole items) (hchild : child? items = some child)
    (hblanks : ∀ c ∈ blanks, Text.isBlank c = true) {rest : List Item}
    (hrest : Outline.separates blanks = true ∨ rest = []) :
    children (items ++ .data blanks :: rest) = child :: children rest := by
  obtain ⟨init, last, hinit⟩ : ∃ init last, items = init ++ [last] :=
    ⟨_, _, (List.dropLast_concat_getLast h.ne_nil).symm⟩
  have hquiet : ∀ item ∈ init, item.Quiet := by
    intro item hitem
    refine ⟨h.ended item ?_, h.joined item ?_⟩
    · rwa [hinit, List.dropLast_concat]
    · rw [hinit]
      exact List.mem_append_left _ hitem
  by_cases hlast : last.isElement = true
  · -- the element ends the group
    have hgroups : groups (items ++ .data blanks :: rest)
        = items :: groups (.data blanks :: rest) := by
      rw [hinit, List.append_assoc]
      exact groups_append_element hquiet hlast _
    rw [children, hgroups, List.filterMap_cons, hchild]
    exact congrArg (child :: ·) (children_cons_data blanks rest)
  · have hall : ∀ item ∈ items, item.Quiet := by
      rw [hinit]
      intro item hitem
      rcases List.mem_append.1 hitem with hmem | hmem
      · exact hquiet item hmem
      · rw [List.mem_singleton.1 hmem]
        refine ⟨by simpa using hlast, h.joined last ?_⟩
        rw [hinit]
        exact List.mem_append_right _ List.mem_cons_self
    by_cases hseparates : Outline.separates blanks = true
    · rw [children, groups_append_separates hall (.data blanks) hseparates, List.filterMap_cons,
        hchild]
      rfl
    · -- the comments are the last child of the root
      obtain rfl : rest = [] := hrest.resolve_left hseparates
      have hdata : Item.Quiet (.data blanks) := ⟨rfl, by simpa [separates] using hseparates⟩
      have hgroup : ∀ item ∈ items ++ [.data blanks], item.Quiet := by
        intro item hitem
        rcases List.mem_append.1 hitem with hmem | hmem
        · exact hall item hmem
        · rw [List.mem_singleton.1 hmem]
          exact hdata
      have htext := child?_of_quiet hall
      rw [hchild, pendingText, if_neg (by rw [h.own]; exact h.ne_nil), Option.map_some] at htext
      rw [children, groups_of_quiet hgroup, List.filterMap_cons, child?_of_quiet hgroup,
        pendingText_append_of_not_begins _ rfl, pendingText, if_neg (by rw [h.own]; exact h.ne_nil)]
      simp only [Option.map_some, List.filterMap_nil, text, Text.trimEnd_append_blanks hblanks,
        ← Option.some.inj htext]
      rfl

end Item

/-- **The text of a child stands on its own**: by itself it is read as this
child. -/
structure Outline.Child.Solid (child : Outline.Child) : Prop where
  opened : ∃ cs, child.text = '<' :: cs
  read : ∃ fs items, Reads child.text fs [] ∧ Sealed fs ∧ Content fs items ∧ Item.Whole items ∧
    (∀ item ∈ items, item.Legible) ∧ Item.child? items = some child

theorem Item.whole_element (tag : Tag) (text : List Char) : Item.Whole [.element tag text] where
  begins := ⟨_, _, rfl, rfl⟩
  joined := by simp [separates]
  ended := by simp

/-- The text of an element is that of a child. -/
theorem IsElementText.solid {tag : Tag} {cs : List Char} {id : Option String}
    (h : IsElementText tag ('<' :: cs)) (hid : tag.attribute? "id" = .ok id) :
    Outline.Child.Solid ⟨id, '<' :: cs⟩ where
  opened := ⟨cs, rfl⟩
  read := by
    obtain ⟨fs, hreads, hsealed, hcontent⟩ := h
    refine ⟨fs, _, hreads, hsealed, hcontent, Item.whole_element tag _, ?_, ?_⟩
    · rintro item hitem
      rw [List.mem_singleton.1 hitem]
      exact ⟨id, hid⟩
    · rw [← List.nil_append [Item.element tag _], Item.child?_append_element, Item.idOf, hid]
      rfl

/-! ## The content of a written root -/

/-- The texts of the children of a root, as they are written: indented, and
with a blank line between them. -/
def childrenText : List (List Char) → List Char
  | [] => []
  | [text] => text ++ ['\n']
  | text :: rest => text ++ '\n' :: '\n' :: ' ' :: ' ' :: childrenText rest

theorem childrenText_cons_cons (text next : List Char) (rest : List (List Char)) :
    childrenText (text :: next :: rest)
      = text ++ '\n' :: '\n' :: ' ' :: ' ' :: childrenText (next :: rest) := rfl

theorem Content.append {fs gs : List Found} {items more : List Item} (hfs : Content fs items)
    (hgs : Content gs more) : Content (fs ++ gs) (items ++ more) := by
  induction hfs with
  | nil => exact hgs
  | comment hevent _ ih => exact .comment hevent ih
  | data hevent _ ih => exact .data hevent ih
  | other hevent _ ih => exact .other hevent ih
  | empty hevent _ ih => exact .empty hevent ih
  | element hstart hinner hstop _ ih =>
    rw [List.append_assoc]
    exact .element hstart hinner hstop ih

/-- A child and the character data behind it, in front of other markup. -/
theorem Reads.child_data {cs text : List Char} {fs : List Found} {items : List Item}
    (h : Reads cs fs []) (hsealed : Sealed fs) (hcontent : Content fs items) (hne : text ≠ [])
    (htext : '<' ∉ text) (rest : List Char) :
    ∃ gs, Reads (cs ++ (text ++ '<' :: rest)) gs ('<' :: rest) ∧
      Content gs (items ++ [.data text]) := by
  have hfront := h.append_right hsealed (text ++ '<' :: rest)
  rw [← List.append_nil (texts fs), h.texts_append] at hfront
  have hpiece := piece_text hne htext (.inr ⟨rest, rfl⟩)
  exact ⟨_, hfront.append (.cons 0 hpiece (.nil _)), hcontent.append (.data rfl .nil)⟩

/-- The text of children begins with the first of them. -/
theorem exists_childrenText {children : List Outline.Child}
    (h : ∀ child ∈ children, child.Solid) (hne : children ≠ []) :
    ∃ cs, childrenText (children.map (·.text)) = '<' :: cs := by
  cases children with
  | nil => exact absurd rfl hne
  | cons child children =>
    obtain ⟨cs, hcs⟩ := (h child List.mem_cons_self).opened
    cases children <;> simp [childrenText, hcs]

/-- **The texts of children are read as these children.** -/
theorem exists_content {children : List Outline.Child} (h : ∀ child ∈ children, child.Solid)
    (hne : children ≠ []) (rest : List Char) :
    ∃ fs items, Reads (childrenText (children.map (·.text)) ++ '<' :: rest) fs ('<' :: rest) ∧
      Content fs items ∧ (∀ item ∈ items, item.Legible) ∧ Item.children items = children := by
  -- the text of a child does not tell where it ends: only the markup or the line behind it does, so
  -- the first child is read together with the blanks up to the next one
  induction children with
  | nil => exact absurd rfl hne
  | cons child children ih =>
    obtain ⟨fs, items, hreads, hsealed, hcontent, hwhole, hlegible, hchild⟩ :=
      (h child List.mem_cons_self).read
    cases children with
    | nil =>
      obtain ⟨gs, hgs, hitems⟩ :=
        hreads.child_data hsealed hcontent (List.cons_ne_nil '\n' []) (by decide) rest
      refine ⟨gs, _, ?_, hitems, ?_,
        Item.children_append_whole hwhole hchild (by decide) (.inr rfl)⟩
      · show Reads (child.text ++ ['\n'] ++ '<' :: rest) gs _
        rwa [List.append_assoc]
      · exact List.forall_mem_append.2 ⟨hlegible, List.forall_mem_singleton.2 trivial⟩
    | cons next children =>
      obtain ⟨hs, more, hhs, hmore, hmorelegible, hchildren⟩ :=
        ih (fun c hc => h c (List.mem_cons_of_mem _ hc)) (List.cons_ne_nil _ _)
      obtain ⟨back, hback⟩ :=
        exists_childrenText (fun c hc => h c (List.mem_cons_of_mem _ hc)) (List.cons_ne_nil next _)
      obtain ⟨gs, hgs, hitems⟩ :=
        hreads.child_data hsealed hcontent (List.cons_ne_nil '\n' ['\n', ' ', ' ']) (by decide)
          (back ++ '<' :: rest)
      rw [hback, List.cons_append] at hhs
      refine ⟨gs ++ hs, items ++ [.data _] ++ more, ?_, hitems.append hmore, ?_, ?_⟩
      · rw [List.map_cons, List.map_cons, childrenText_cons_cons, ← List.map_cons, hback,
          List.append_assoc]
        exact hgs.append hhs
      · exact List.forall_mem_append.2
          ⟨List.forall_mem_append.2 ⟨hlegible, List.forall_mem_singleton.2 trivial⟩, hmorelegible⟩
      · rw [List.append_assoc, List.singleton_append,
          Item.children_append_whole hwhole hchild (by decide) (.inl (by decide)), hchildren]

/-! ## The whole document -/

/-- A document whose root and whose type can be written. -/
structure Document.Writable (d : Document) : Prop where
  root : IsName d.root.name
  attributes : ∀ a ∈ d.root.attributes, IsName a.1
  publicId : ∀ id, d.publicId = some id → '<' ∉ id.toList ∧ '>' ∉ id.toList
  systemId : ∀ id, d.systemId = some id → '<' ∉ id.toList ∧ '>' ∉ id.toList

theorem upToClose_free {complete : List Char → Bool} {read front : List Char}
    (hfront : '>' ∉ front) (hcomplete : complete (front.reverse ++ read) = true)
    (rest : List Char) :
    upToClose complete read (front ++ '>' :: rest) = some (read.reverse ++ front, rest) := by
  induction front generalizing read with
  | nil =>
    rw [List.reverse_nil, List.nil_append] at hcomplete
    simp [upToClose, hcomplete]
  | cons c front ih =>
    obtain ⟨hc, hfree⟩ := not_or.1 (List.mem_cons.not.1 hfront)
    have hgo : (c == '>' && complete read) = false := by simp [Ne.symm hc]
    rw [List.reverse_cons, List.append_assoc, List.singleton_append] at hcomplete
    rw [List.cons_append, upToClose, hgo, if_neg Bool.false_ne_true, ih hfree hcomplete]
    simp

/-- **A document type without brackets is a piece.** -/
theorem piece_doctype {front : List Char} (hless : '<' ∉ front) (hgreater : '>' ∉ front)
    (hblank : front.any (!isTagBlank ·) = true) (rest : List Char) :
    piece ('<' :: ("!DOCTYPE".toList ++ front) ++ '>' :: rest)
      = .read .other ('<' :: ("!DOCTYPE".toList ++ front) ++ ['>']) rest := by
  have hcomplete : doctypeComplete (("!DOCTYPE".toList ++ front).reverse ++ []) = true := by
    rw [List.append_nil, doctypeComplete, List.count_reverse, List.count_reverse,
      List.count_append, List.count_append, List.count_eq_zero.2 hless,
      List.count_eq_zero.2 hgreater]
    decide
  have hfree : '>' ∉ "!DOCTYPE".toList ++ front :=
    List.mem_append.not.2 (not_or.2 ⟨by decide, hgreater⟩)
  have hend := upToClose_free hfree hcomplete rest
  have hbegins : beginsWith ['!', 'D', 'O', 'C', 'T', 'Y', 'P', 'E'] ("!DOCTYPE".toList ++ front)
      = true := by
    simp [beginsWith]
  have hdrop : ("!DOCTYPE".toList ++ front).drop 8 = front := rfl
  show bang ("!DOCTYPE".toList ++ front ++ '>' :: rest) = _
  unfold bang
  show Piece.between _
      (upToClose doctypeComplete [] ("!DOCTYPE".toList ++ front ++ '>' :: rest)) = _
  rw [hend]
  simp only [Piece.between, List.reverse_nil, List.nil_append, hbegins, hdrop, hblank,
    Bool.and_self, if_true]

/-- A name holds no bracket. -/
theorem IsName.free {name : String} (h : IsName name) : '<' ∉ name.toList ∧ '>' ∉ name.toList :=
  ⟨fun hmem => absurd (h.2 _ hmem) (by decide), fun hmem => absurd (h.2 _ hmem) (by decide)⟩

/-- What follows `<!DOCTYPE` in a document type. -/
def doctypeText (name publicId systemId : String) : List Char :=
  ' ' :: name.toList ++ " PUBLIC \"".toList ++ publicId.toList ++
    "\" \"".toList ++ systemId.toList ++
    ['"']

theorem not_mem_doctypeText {c : Char} (hc : c = '<' ∨ c = '>') {name publicId systemId : String}
    (hname : c ∉ name.toList) (hpublic : c ∉ publicId.toList) (hsystem : c ∉ systemId.toList) :
    c ∉ doctypeText name publicId systemId := by
  rcases hc with rfl | rfl <;> simp [doctypeText, hname, hpublic, hsystem]

/-- **A piece outside of the root of a written document**: a declaration or a
line end. -/
def Found.IsLayout (f : Found) : Prop :=
  f.event = .other ∨ f.event = .text ['\n']

theorem isTag_of_isLayout {fs : List Found} (h : ∀ f ∈ fs, f.IsLayout) :
    ∀ f ∈ fs, f.isTag = false := by
  intro f hf
  rcases h f hf with hevent | hevent <;> rw [Found.isTag, hevent]

/-- The document type of a written document, with a line end in front and
one behind it. -/
theorem exists_doctype {d : Document} (h : d.Writable) (rest : List Char) :
    ∃ fs, (∀ f ∈ fs, f.IsLayout) ∧
      Reads ('\n' :: (d.renderDoctype.toList ++ '<' :: rest)) fs ('<' :: rest) := by
  have hline : ∀ back, Reads ('\n' :: '<' :: back) [⟨.text ['\n'], 0, ['\n']⟩] ('<' :: back) :=
    fun back =>
      .cons 0 (piece_text (List.cons_ne_nil '\n' []) (by decide) (.inr ⟨back, rfl⟩)) (.nil _)
  unfold Document.renderDoctype
  split
  next publicId systemId hpublic hsystem =>
    obtain ⟨hpublicless, hpublicgreater⟩ := h.publicId _ hpublic
    obtain ⟨hsystemless, hsystemgreater⟩ := h.systemId _ hsystem
    have hpiece := piece_doctype
      (not_mem_doctypeText (.inl rfl) h.root.free.1 hpublicless hsystemless)
      (not_mem_doctypeText (.inr rfl) h.root.free.2 hpublicgreater hsystemgreater)
      (by simp [doctypeText, isTagBlank]) ('\n' :: '<' :: rest)
    have htext : ("<!DOCTYPE " ++ d.root.name ++ " PUBLIC \"" ++ publicId ++ "\" \"" ++ systemId ++
          "\">\n").toList ++ '<' :: rest
        = '<' :: ("!DOCTYPE".toList ++ doctypeText d.root.name publicId systemId) ++
            '>' :: '\n' :: '<' :: rest := by
      simp [doctypeText]
    rw [htext]
    exact ⟨_, by simp [Found.IsLayout], (hline _).append (.cons 0 hpiece (hline rest))⟩
  · exact ⟨_, by simp [Found.IsLayout], hline rest⟩

/-- **What stands in front of the root of a written document** holds no
tag. -/
theorem exists_header {d : Document} (h : d.Writable) (rest : List Char) :
    ∃ fs, (∀ f ∈ fs, f.IsLayout) ∧
      Reads ("<?xml version=\"1.0\" encoding=\"UTF-8\"?>\n".toList ++
        (d.renderDoctype.toList ++ '<' :: rest)) fs ('<' :: rest) := by
  obtain ⟨fs, hfs, hreads⟩ := exists_doctype h rest
  have hpiece : piece ("<?xml version=\"1.0\" encoding=\"UTF-8\"?>\n".toList ++
        (d.renderDoctype.toList ++ '<' :: rest))
      = .read .other "<?xml version=\"1.0\" encoding=\"UTF-8\"?>".toList
          ('\n' :: (d.renderDoctype.toList ++ '<' :: rest)) := by
    simp [piece, instruction]
  refine ⟨_, ?_, .cons 0 hpiece hreads⟩
  exact List.forall_mem_cons.2 ⟨.inl rfl, hfs⟩

theorem intercalate_children {texts : List (List Char)} (hne : texts ≠ []) :
    ['\n'].intercalate (texts.map fun text => ' ' :: ' ' :: text ++ ['\n'])
      = ' ' :: ' ' :: childrenText texts := by
  induction texts with
  | nil => exact absurd rfl hne
  | cons text texts ih =>
    cases texts with
    | nil => simp [childrenText]
    | cons next texts =>
      have hrest := ih (List.cons_ne_nil _ _)
      rw [List.map_cons] at hrest
      rw [List.map_cons, List.map_cons, List.intercalate_cons_cons, hrest, childrenText_cons_cons]
      simp

/-- The text of a document with children, each on lines of its own. -/
theorem toList_render {d : Document} {texts : List (List Char)} (hne : texts ≠ [])
    (htexts : d.root.children.map (fun n => (n.render 1).toList)
      = texts.map fun text => ' ' :: ' ' :: text) :
    d.render.toList = "<?xml version=\"1.0\" encoding=\"UTF-8\"?>\n".toList ++
      (d.renderDoctype.toList ++ ((renderTag d.root.name d.root.attributes).toList ++
        '>' :: '\n' :: ' ' :: ' ' :: (childrenText texts ++
          '<' :: '/' :: (d.root.name.toList ++ '>' :: ['\n'])))) := by
  have hlines : (d.root.children.map fun n => n.render 1 ++ "\n").map String.toList
      = texts.map fun text => ' ' :: ' ' :: text ++ ['\n'] := by
    have h := congrArg (List.map (· ++ ['\n'])) htexts
    rw [List.map_map, List.map_map] at h
    rw [List.map_map]
    simpa [Function.comp_def] using h
  have hcontent : ("\n".intercalate (d.root.children.map fun n => n.render 1 ++ "\n")).toList
      = ' ' :: ' ' :: childrenText texts := by
    rw [String.toList_intercalate, hlines]
    exact intercalate_children hne
  unfold Document.render
  split
  next hnil => simp_all
  · simp [hcontent]

theorem head?_render (d : Document) : d.render.toList.head? = some '<' := by
  have hdeclaration (content : String) :
      ("<?xml version=\"1.0\" encoding=\"UTF-8\"?>\n" ++ content).toList.head? =
      some '<' := by simp
  unfold Document.render
  rw [String.append_assoc, String.append_assoc]
  apply hdeclaration

/-- What has been read without a fault does not depend on where it stands. -/
theorem Outline.run_congr {fs gs : List Found} (h : fs.map Found.said = gs.map Found.said)
    {o last : Outline} (hrun : o.run fs = (last, none)) : o.run gs = (last, none) := by
  induction fs generalizing o gs with
  | nil =>
    obtain rfl : gs = [] := by simpa using h.symm
    exact hrun
  | cons f fs ih =>
    cases gs with
    | nil => simp at h
    | cons g gs =>
      obtain ⟨hsaid, hrest⟩ := List.cons.inj h
      obtain ⟨hevent, htext⟩ := Prod.mk.inj hsaid
      rw [run] at hrun ⊢
      split at hrun
      · simp at hrun
      next mid hstep =>
        have hstep' : o.step g = .ok mid := by
          rw [← hstep, step, step, ← hevent, ← htext]
          cases hf : f.event with
          | closing name =>
            rw [step, hf] at hstep
            cases hleave : o.leave name f.text <;> simp_all
          | _ => rfl
        rw [hstep']
        exact ih hrest hrun

/-- Without byte order mark the events of a document are its pieces. -/
theorem Reading.ofDocument_of_ne {s : String} (h : s.toList.head? ≠ some '\uFEFF') :
    Reading.ofDocument s = Reading.ofText 0 s.toList := by
  unfold Reading.ofDocument
  split
  next hlist => simp [hlist] at h
  · rfl

/-- The outline of a text without byte order mark, from its pieces. -/
theorem Outline.ofDocument_of_reads {s : String} {fs : List Found} {last : Outline}
    (hmark : s.toList.head? ≠ some '\uFEFF') (h : Reads s.toList fs [])
    (hrun : run {} fs = (last, none)) : ofDocument s = (last, none) := by
  obtain ⟨hevents, hmalformed⟩ := h.ofText rfl 0
  rw [ofDocument, Reading.ofDocument_of_ne hmark]
  simp only [run_congr hevents.symm hrun, hmalformed, Option.map_none, Option.or_none]

/-- The line end behind a written document. -/
theorem exists_end : ∃ fs, (∀ f ∈ fs, f.IsLayout) ∧ Reads ['\n'] fs [] :=
  ⟨_, List.forall_mem_singleton.2 (.inr rfl),
    .cons 0 (piece_text (List.cons_ne_nil '\n' []) (by decide) (.inl rfl)) (.nil [])⟩

/-- A written document without children. -/
theorem rooted_of_empty {d : Document} (h : d.Writable) (hchildren : d.root.children = []) :
    ∃ fs, Reads d.render.toList fs [] ∧
      Rooted fs (writtenTag d.root.name d.root.attributes [' ']) [] := by
  have htext : d.render.toList = "<?xml version=\"1.0\" encoding=\"UTF-8\"?>\n".toList ++
      (d.renderDoctype.toList ++ ((renderTag d.root.name d.root.attributes).toList ++
        ' ' :: '/' :: '>' :: ['\n'])) := by
    unfold Document.render
    rw [hchildren]
    simp
  have htag := toList_renderTag d.root.name d.root.attributes
  have hpiece := piece_empty h.root h.attributes ['\n']
  rw [htag, List.cons_append, List.cons_append] at hpiece
  obtain ⟨before, hbefore, hheader⟩ := exists_header h _
  obtain ⟨behind, hbehind, hend⟩ := exists_end
  have hreads := hheader.append (.cons 0 hpiece hend)
  rw [htag, List.cons_append, List.cons_append] at htext
  rw [← htext] at hreads
  exact ⟨_, hreads, .empty (isTag_of_isLayout hbefore) rfl (isTag_of_isLayout hbehind)⟩

/-- A written document with children. -/
theorem rooted_of_children {d : Document} {children : List Outline.Child} (h : d.Writable)
    (hsolid : ∀ child ∈ children, child.Solid) (hne : children ≠ [])
    (htexts : d.root.children.map (fun n => (n.render 1).toList)
      = children.map fun child => ' ' :: ' ' :: child.text) :
    ∃ fs items, Reads d.render.toList fs [] ∧
      Rooted fs (writtenTag d.root.name d.root.attributes []) items ∧
      (∀ item ∈ items, item.Legible) ∧ Item.children items = children := by
  have hnone : children.map (·.text) ≠ [] := fun hnil => hne (List.map_eq_nil_iff.1 hnil)
  have htext := toList_render hnone (by rw [htexts, List.map_map]; rfl)
  have htag := toList_renderTag d.root.name d.root.attributes
  obtain ⟨inner, items, hinner, hcontent, hlegible, hchildren⟩ :=
    exists_content hsolid hne ('/' :: (d.root.name.toList ++ '>' :: ['\n']))
  obtain ⟨first, hfirst⟩ := exists_childrenText hsolid hne
  have hpiece := piece_opening h.root h.attributes ('\n' :: ' ' :: ' ' ::
    (childrenText (children.map (·.text)) ++ '<' :: '/' :: (d.root.name.toList ++ '>' :: ['\n'])))
  have hdata : ∀ back, piece (['\n', ' ', ' '] ++ '<' :: back)
      = .read (.text ['\n', ' ', ' ']) ['\n', ' ', ' '] ('<' :: back) := fun back =>
    piece_text (List.cons_ne_nil '\n' [' ', ' ']) (by decide) (.inr ⟨back, rfl⟩)
  obtain ⟨before, hbefore, hheader⟩ := exists_header h _
  obtain ⟨behind, hbehind, hend⟩ := exists_end
  rw [hfirst] at hinner hpiece htext
  rw [htag, List.cons_append, List.cons_append] at hpiece htext
  have hreads := hheader.append (.cons 0 hpiece
    (.append (.cons 0 (hdata _) hinner) (.cons 0 (piece_closing h.root _) hend)))
  rw [← htext] at hreads
  refine ⟨_, _, hreads, .content (isTag_of_isLayout hbefore) rfl (.data rfl hcontent) rfl
    (isTag_of_isLayout hbehind), ?_, ?_⟩
  · exact List.forall_mem_cons.2 ⟨trivial, hlegible⟩
  · rw [Item.children_cons_data, hchildren]

/-- **Reading a written document gives its root and the children it was
written with.** -/
theorem outline_render {d : Document} {children : List Outline.Child} (h : d.Writable)
    (hsolid : ∀ child ∈ children, child.Solid)
    (htexts : d.root.children.map (fun n => (n.render 1).toList)
      = children.map fun child => ' ' :: ' ' :: child.text) :
    ∃ tag : Tag, tag.name = d.root.name.toList ∧
      (∀ name, tag.attribute? name = .ok (d.root.attribute? name)) ∧
      Outline.ofDocument d.render = ({ roots := [tag], children := children }, none) := by
  have hmark : d.render.toList.head? ≠ some '\uFEFF' := by
    rw [head?_render]
    decide
  have hblank : ∀ c ∈ [' '], isTagBlank c = true := by decide
  have hnil : ∀ c ∈ [], isTagBlank c = true := by simp
  by_cases hne : children = []
  · have hnone : d.root.children = [] := by
      rw [hne] at htexts
      exact List.map_eq_nil_iff.1 htexts
    obtain ⟨fs, hreads, hrooted⟩ := rooted_of_empty h hnone
    refine ⟨_, rfl, attribute?_written h.attributes hblank _, ?_⟩
    rw [Outline.ofDocument_of_reads hmark hreads (Outline.run_of_rooted hrooted (by simp)), hne]
    rfl
  · obtain ⟨fs, items, hreads, hrooted, hlegible, hchildren⟩ :=
      rooted_of_children h hsolid hne htexts
    refine ⟨_, rfl, attribute?_written h.attributes hnil _, ?_⟩
    rw [Outline.ofDocument_of_reads hmark hreads
      (Outline.run_of_rooted hrooted hlegible), hchildren]

end TableMapper.Markup
