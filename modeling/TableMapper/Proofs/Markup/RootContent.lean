import TableMapper.Proofs.Markup.Nesting

/-!
# What stands in the root of a document

A second description of the children of a document, independent of the
outline: the content of the root is a list of items – elements, comments,
character data and the rest –, and the items fall into **groups**, which
end behind every element and in front of every piece of character data
that separates. A group holds at most one child: its element with the
comments directly above it, or its comments alone (`Item.child?`). The
outline finds exactly these children, in this order (`run_of_rooted`).
-/

namespace TableMapper.Markup

/-- What stands directly in the root of a document. -/
inductive Item
  | element (tag : Tag) (text : List Char)
  | comment (text : List Char)
  | data (text : List Char)
  /-- A processing instruction, a data section or a document type. -/
  | other (text : List Char)
deriving Repr, DecidableEq

namespace Item

/-- The text of an item. -/
def text : Item → List Char
  | element _ text | comment text | data text | other text => text

/-- The text of several items. -/
def texts (items : List Item) : List Char :=
  items.flatMap text

/-- The item is an element. -/
def isElement : Item → Bool
  | element _ _ => true
  | _ => false

/-- Character data that separates a comment from the next child. -/
def separates : Item → Bool
  | data text => Outline.separates text
  | _ => false

/-- An item that may begin a child. -/
def begins : Item → Bool
  | element _ _ | comment _ => true
  | _ => false

/-- **The groups of the items of a root**: a group ends behind an element
and in front of character data that separates, which belongs to none. -/
def groups : List Item → List (List Item)
  | [] => [[]]
  | item :: rest =>
    if item.isElement then [item] :: groups rest
    else if item.separates then [] :: groups rest
    else
      match groups rest with
      | [] => [[item]]
      | group :: more => (item :: group) :: more

/-- The part of a group from its first comment or element on. -/
def own (group : List Item) : List Item :=
  group.dropWhile (!begins ·)

/-- The `id` of a tag, if it can be read and the tag has one. -/
def idOf (tag : Tag) : Option String :=
  (tag.attribute? "id").toOption.join

/-- **The child that a group holds**: its element with the comments above
it, or its comments without the blanks behind them. -/
def child? (group : List Item) : Option Outline.Child :=
  match own group with
  | [] => none
  | items =>
    match items.getLast? with
    | some (element tag _) => some ⟨idOf tag, texts items⟩
    | _ => some ⟨none, Text.trimEnd (texts items)⟩

/-- **The children that the items of a root make up.** -/
def children (items : List Item) : List Outline.Child :=
  (groups items).filterMap child?

/-- The `id` of an element can be read. -/
def Legible : Item → Prop
  | element tag _ => ∃ id, tag.attribute? "id" = .ok id
  | _ => True

end Item

/-- **The items that a part of a document directly in the root consists
of.** The elements are closed in it. -/
inductive Content : List Found → List Item → Prop
  | nil : Content [] []
  | comment {f : Found} {fs : List Found} {items : List Item} :
      f.event = .comment → Content fs items → Content (f :: fs) (.comment f.text :: items)
  | data {f : Found} {fs : List Found} {items : List Item} :
      f.event = .text f.text → Content fs items → Content (f :: fs) (.data f.text :: items)
  | other {f : Found} {fs : List Found} {items : List Item} :
      f.event = .other → Content fs items → Content (f :: fs) (.other f.text :: items)
  | empty {f : Found} {fs : List Found} {items : List Item} {tag : Tag} :
      f.event = .empty tag → Content fs items → Content (f :: fs) (.element tag f.text :: items)
  | element {start stop : Found} {inner fs : List Found} {items : List Item} {tag : Tag} :
      start.event = .opening tag → Nested inner → stop.event = .closing tag.name →
      Content fs items →
      Content (start :: inner ++ [stop] ++ fs)
        (.element tag (texts (start :: inner ++ [stop])) :: items)

/-- The content that consists of one element. -/
theorem Content.single {start stop : Found} {inner : List Found} {tag : Tag}
    (hstart : start.event = .opening tag) (hinner : Nested inner)
    (hstop : stop.event = .closing tag.name) :
    Content (start :: inner ++ [stop]) [.element tag (texts (start :: inner ++ [stop]))] := by
  have h := Content.element hstart hinner hstop .nil
  rwa [List.append_nil] at h

/-- The piece is a tag. -/
def Found.isTag (f : Found) : Bool :=
  match f.event with
  | .opening _ | .empty _ | .closing _ => true
  | _ => false

/-- **A document with one root**, in which every element that is opened is
closed: the tag of the root, and the items in it. -/
inductive Rooted : List Found → Tag → List Item → Prop
  | content {before inner behind : List Found} {start stop : Found} {tag : Tag}
      {items : List Item} :
      (∀ f ∈ before, f.isTag = false) → start.event = .opening tag → Content inner items →
      stop.event = .closing tag.name → (∀ f ∈ behind, f.isTag = false) →
      Rooted (before ++ start :: (inner ++ stop :: behind)) tag items
  | empty {before behind : List Found} {f : Found} {tag : Tag} :
      (∀ g ∈ before, g.isTag = false) → f.event = .empty tag → (∀ g ∈ behind, g.isTag = false) →
      Rooted (before ++ f :: behind) tag []

/-! ## Groups -/

namespace Item

/-- An item that belongs to the group around it. -/
def Quiet (item : Item) : Prop :=
  item.isElement = false ∧ item.separates = false

theorem groups_ne_nil (items : List Item) : groups items ≠ [] := by
  cases items with
  | nil => simp [groups]
  | cons item rest =>
    rw [groups]
    split
    · simp
    · split
      · simp
      · split <;> simp

/-- Items in front that end no group belong to the first one. -/
theorem groups_append_of_quiet {pending : List Item} (h : ∀ item ∈ pending, item.Quiet)
    {items group : List Item} {more : List (List Item)} (hitems : groups items = group :: more) :
    groups (pending ++ items) = (pending ++ group) :: more := by
  induction pending with
  | nil => exact hitems
  | cons item pending ih =>
    obtain ⟨helement, hseparates⟩ := h item List.mem_cons_self
    rw [List.cons_append, groups, helement, hseparates,
      ih fun i hi => h i (List.mem_cons_of_mem _ hi)]
    rfl

theorem groups_append_element {pending : List Item} (h : ∀ item ∈ pending, item.Quiet)
    {item : Item} (hitem : item.isElement = true) (rest : List Item) :
    groups (pending ++ item :: rest) = (pending ++ [item]) :: groups rest :=
  groups_append_of_quiet h (by rw [groups, hitem]; rfl)

theorem groups_append_separates {pending : List Item} (h : ∀ item ∈ pending, item.Quiet)
    (item : Item) (hitem : item.separates = true) (rest : List Item) :
    groups (pending ++ item :: rest) = pending :: groups rest := by
  have hgroups : groups (item :: rest) = [] :: groups rest := by
    cases item <;> simp_all [groups, isElement, separates]
  rw [groups_append_of_quiet h hgroups, List.append_nil]

/-- Without further items the pending ones are one group. -/
theorem groups_of_quiet {pending : List Item} (h : ∀ item ∈ pending, item.Quiet) :
    groups pending = [pending] := by
  have hgroups := groups_append_of_quiet h (show groups [] = [[]] from rfl)
  rwa [List.append_nil] at hgroups

/-! ## Comments that are pending -/

/-- **The text that the comments of a group contribute** to the child of the
group, and everything between them. -/
def pendingText (group : List Item) : Option (List Char) :=
  if own group = [] then none else some (texts (own group))

@[simp] theorem pendingText_nil : pendingText [] = none := rfl

theorem own_append (group : List Item) (item : Item) :
    own (group ++ [item]) = if own group = [] then own [item] else own group ++ [item] := by
  rw [own, List.dropWhile_append]
  show (if (own group).isEmpty = true then own [item] else own group ++ [item]) = _
  by_cases h : own group = []
  · rw [if_pos h, if_pos (List.isEmpty_iff.2 h)]
  · rw [if_neg h, if_neg (by rwa [List.isEmpty_iff])]

theorem texts_append (items more : List Item) : texts (items ++ more) = texts items ++ texts more :=
  List.flatMap_append

@[simp] theorem texts_singleton (item : Item) : texts [item] = item.text :=
  List.append_nil _

theorem pendingText_append_comment (group : List Item) (text : List Char) :
    pendingText (group ++ [comment text]) = some ((pendingText group).getD [] ++ text) := by
  have hown : own [comment text] = [comment text] := rfl
  rw [pendingText, pendingText, own_append]
  by_cases h : own group = []
  · rw [if_pos h, if_pos h, hown, if_neg (by simp), texts_singleton]
    rfl
  · rw [if_neg h, if_neg h, if_neg (by simp), texts_append, texts_singleton]
    rfl

theorem pendingText_append_of_not_begins (group : List Item) {item : Item}
    (hitem : item.begins = false) :
    pendingText (group ++ [item]) = (pendingText group).map (· ++ item.text) := by
  have hown : own [item] = [] := by
    rw [own, List.dropWhile_cons, hitem]
    rfl
  rw [pendingText, pendingText, own_append]
  by_cases h : own group = []
  · rw [if_pos h, if_pos h, hown]
    rfl
  · rw [if_neg h, if_neg h, if_neg (by simp), texts_append, texts_singleton]
    rfl

/-- A group without element holds its comments as a child. -/
theorem child?_of_quiet {group : List Item} (h : ∀ item ∈ group, item.Quiet) :
    child? group = (pendingText group).map fun text => ⟨none, Text.trimEnd text⟩ := by
  have hlast : ∀ tag text, (own group).getLast? ≠ some (element tag text) := by
    intro tag text hlast
    have hmem := (List.dropWhile_sublist _).subset (List.mem_of_getLast? hlast)
    exact Bool.noConfusion (h _ hmem).1
  rw [child?, pendingText]
  split
  next hown => rw [if_pos hown]; rfl
  next hne =>
    rw [if_neg hne]
    split
    next hown => exact absurd hown (hlast _ _)
    · rfl

/-- A group with an element holds the element with the comments above it. -/
theorem child?_append_element (group : List Item) (tag : Tag) (text : List Char) :
    child? (group ++ [element tag text])
      = some ⟨idOf tag, (pendingText group).getD [] ++ text⟩ := by
  have hown : own (group ++ [element tag text]) = own group ++ [element tag text] := by
    rw [own_append]
    split
    next h => rw [h]; rfl
    · rfl
  rw [child?, hown]
  split
  next h => simp at h
  · rw [List.getLast?_concat]
    simp only [texts_append, texts_singleton, pendingText]
    by_cases h : own group = []
    · rw [h, if_pos rfl]
      rfl
    · rw [if_neg h]
      rfl

end Item

/-! ## The outline of a root -/

namespace Outline

open Item (pendingText)

/-- The state of the outline between two items of the root: the comments of
the group that has begun are pending. -/
structure Between (o : Outline) (root : List Char) (pending : List Item) : Prop where
  opened : o.opened = [root]
  current : o.current = none
  comment : o.comment = pendingText pending
  quiet : ∀ item ∈ pending, item.Quiet

variable {o : Outline} {root : List Char} {pending : List Item} {f : Found}

theorem Between.step_comment (h : o.Between root pending) (hevent : f.event = .comment) :
    o.step f = .ok { o with comment := pendingText (pending ++ [.comment f.text]) } := by
  rw [step, hevent]
  simp only [note, h.opened, h.comment, Item.pendingText_append_comment]

/-- Without a child that is being read, only pending comments grow. -/
theorem Between.carry (h : o.Between root pending) (item : Item) (hitem : item.begins = false) :
    o.carry item.text = { o with comment := pendingText (pending ++ [item]) } := by
  rw [Item.pendingText_append_of_not_begins pending hitem, ← h.comment, Outline.carry, h.current]
  rfl

theorem Between.detach (h : o.Between root pending) :
    o.detach = { o with
      comment := none
      children := o.children ++ (Item.child? pending).toList } := by
  rw [Item.child?_of_quiet h.quiet, ← h.comment, Outline.detach]
  cases hcomment : o.comment with
  | none =>
    cases o
    simp_all
  | some text => rfl

theorem Between.begun (h : o.Between root pending) {tag : Tag} {id : Option String}
    (hid : tag.attribute? "id" = .ok id) (text : List Char) :
    [o.begun id text] = (Item.child? (pending ++ [.element tag text])).toList := by
  rw [Item.child?_append_element, Outline.begun, h.comment, Item.idOf, hid]
  rfl

/-- An item that ends no group joins the pending ones. -/
theorem Between.join (h : o.Between root pending) (item : Item) (hitem : item.Quiet) :
    ({ o with comment := pendingText (pending ++ [item]) } : Outline).Between root
      (pending ++ [item]) where
  opened := h.opened
  current := h.current
  comment := rfl
  quiet := by
    intro i hi
    rcases List.mem_append.1 hi with hi | hi
    · exact h.quiet i hi
    · rwa [List.mem_singleton.1 hi]

/-- Behind the end of a group nothing is pending. -/
theorem Between.ended (h : o.Between root pending) (group : List Item) :
    ({ o with
      comment := none
      children := o.children ++ (Item.child? group).toList } : Outline).Between root [] where
  opened := h.opened
  current := h.current
  comment := rfl
  quiet := by simp

theorem Between.step_separating (h : o.Between root pending) (hevent : f.event = .text f.text)
    (hseparates : separates f.text = true) :
    o.step f = .ok { o with
      comment := none
      children := o.children ++ (Item.child? pending).toList } := by
  rw [step, hevent, ← h.detach]
  simp only [data, h.opened, hseparates, if_true]

theorem Between.step_data (h : o.Between root pending) (hevent : f.event = .text f.text)
    (hseparates : separates f.text = false) :
    o.step f = .ok { o with comment := pendingText (pending ++ [.data f.text]) } := by
  rw [step, hevent, ← h.carry (.data f.text) rfl]
  simp only [data, h.opened, hseparates, Bool.false_eq_true, if_false]
  rfl

theorem Between.step_other (h : o.Between root pending) (hevent : f.event = .other) :
    o.step f = .ok { o with comment := pendingText (pending ++ [.other f.text]) } := by
  rw [step, hevent, ← h.carry (.other f.text) rfl]
  rfl

theorem Between.step_empty (h : o.Between root pending) {tag : Tag} {id : Option String}
    (hevent : f.event = .empty tag) (hid : tag.attribute? "id" = .ok id) :
    o.step f = .ok { o with
      comment := none
      children := o.children ++ (Item.child? (pending ++ [.element tag f.text])).toList } := by
  rw [step, hevent]
  simp only [passEmpty, h.opened, hid, ← h.begun hid]
  rfl

theorem Between.run_element (h : o.Between root pending) {start stop : Found}
    {inner : List Found} {tag : Tag} {id : Option String} (hstart : start.event = .opening tag)
    (hinner : Nested inner) (hstop : stop.event = .closing tag.name)
    (hid : tag.attribute? "id" = .ok id) :
    o.run (start :: inner ++ [stop])
      = ({ o with
            comment := none
            children := o.children ++ (Item.child?
              (pending ++ [.element tag (texts (start :: inner ++ [stop]))])).toList }, none) := by
  rw [Outline.run_element hstart hinner hstop hid h.opened, h.begun hid, ← h.current]

/-- **Reading a part of a root completes groups**: all but the last of them
are children of the outline behind it, and the last one is pending. -/
def Completes (o : Outline) (root : List Char) (fs : List Found) (groups : List (List Item)) :
    Prop :=
  ∃ done last, groups = done ++ [last] ∧
    ∃ next, o.run fs = (next, none) ∧ next.Between root last ∧ next.roots = o.roots ∧
      next.children = o.children ++ done.filterMap Item.child?

/-- A group that ends is a child in front of those of the groups behind it. -/
theorem Completes.cons {next : Outline} {fs gs : List Found} {group : List Item}
    {more : List (List Item)} (hmore : next.Completes root gs more)
    (hrun : o.run fs = next.run gs) (hroots : next.roots = o.roots)
    (hchildren : next.children = o.children ++ (Item.child? group).toList) :
    o.Completes root fs (group :: more) := by
  obtain ⟨done, last, rfl, final, hfinal, hbetween, hroots', hchildren'⟩ := hmore
  refine ⟨group :: done, last, rfl, final, hrun.trans hfinal, hbetween, hroots'.trans hroots, ?_⟩
  rw [hchildren', hchildren, List.append_assoc, List.filterMap_cons]
  cases Item.child? group <;> rfl

/-- **The outline of the content of a root.** -/
theorem Between.run_content {fs : List Found} {items : List Item} (hcontent : Content fs items)
    (h : o.Between root pending) (hlegible : ∀ item ∈ items, item.Legible) :
    o.Completes root fs (Item.groups (pending ++ items)) := by
  -- the items that are pending are the group that has been begun; an element or blanks that
  -- separate end it, and anything else joins it
  induction hcontent generalizing o pending with
  | nil =>
    refine ⟨[], pending, ?_, o, rfl, h, rfl, (List.append_nil _).symm⟩
    rw [List.append_nil, Item.groups_of_quiet h.quiet]
    rfl
  | @comment f fs items hevent _ ih =>
    have hquiet : (Item.comment f.text).Quiet := ⟨rfl, rfl⟩
    have hnext := ih (h.join _ hquiet) fun i hi => hlegible i (List.mem_cons_of_mem _ hi)
    rw [List.append_assoc] at hnext
    rw [Completes, run_cons_of_ok (h.step_comment hevent)]
    exact hnext
  | @data f fs items hevent _ ih =>
    have hrest : ∀ item ∈ items, item.Legible := fun i hi => hlegible i (List.mem_cons_of_mem _ hi)
    cases hseparates : Outline.separates f.text with
    | true =>
      rw [Item.groups_append_separates h.quiet (.data f.text) hseparates]
      exact (ih (h.ended pending) hrest).cons
        (run_cons_of_ok (h.step_separating hevent hseparates) fs) rfl rfl
    | false =>
      have hnext := ih (h.join (.data f.text) ⟨rfl, hseparates⟩) hrest
      rw [List.append_assoc] at hnext
      rw [Completes, run_cons_of_ok (h.step_data hevent hseparates)]
      exact hnext
  | @other f fs items hevent _ ih =>
    have hquiet : (Item.other f.text).Quiet := ⟨rfl, rfl⟩
    have hnext := ih (h.join _ hquiet) fun i hi => hlegible i (List.mem_cons_of_mem _ hi)
    rw [List.append_assoc] at hnext
    rw [Completes, run_cons_of_ok (h.step_other hevent)]
    exact hnext
  | @empty f fs items tag hevent _ ih =>
    obtain ⟨id, hid⟩ := hlegible _ List.mem_cons_self
    rw [Item.groups_append_element h.quiet rfl]
    exact (ih (h.ended _) fun i hi => hlegible i (List.mem_cons_of_mem _ hi)).cons
      (run_cons_of_ok (h.step_empty hevent hid) fs) rfl rfl
  | @element start stop inner fs items tag hstart hinner hstop _ ih =>
    obtain ⟨id, hid⟩ := hlegible _ List.mem_cons_self
    rw [Item.groups_append_element h.quiet rfl]
    exact (ih (h.ended _) fun i hi => hlegible i (List.mem_cons_of_mem _ hi)).cons
      (run_append_of_ok (h.run_element hstart hinner hstop hid) fs) rfl rfl

/-- What has been read without a fault is legible. -/
theorem Between.legible_of_run {last : Outline} {fs : List Found} {items : List Item}
    (hcontent : Content fs items) (h : o.Between root pending) (hrun : o.run fs = (last, none)) :
    ∀ item ∈ items, item.Legible := by
  induction hcontent generalizing o pending with
  | nil => simp
  | @comment f fs items hevent _ ih =>
    rw [run_cons_of_ok (h.step_comment hevent)] at hrun
    exact List.forall_mem_cons.2 ⟨trivial, ih (h.join _ ⟨rfl, rfl⟩) hrun⟩
  | @data f fs items hevent _ ih =>
    refine List.forall_mem_cons.2 ⟨trivial, ?_⟩
    cases hseparates : Outline.separates f.text with
    | true =>
      rw [run_cons_of_ok (h.step_separating hevent hseparates)] at hrun
      exact ih (h.ended pending) hrun
    | false =>
      rw [run_cons_of_ok (h.step_data hevent hseparates)] at hrun
      exact ih (h.join (.data f.text) ⟨rfl, hseparates⟩) hrun
  | @other f fs items hevent _ ih =>
    rw [run_cons_of_ok (h.step_other hevent)] at hrun
    exact List.forall_mem_cons.2 ⟨trivial, ih (h.join _ ⟨rfl, rfl⟩) hrun⟩
  | @empty f fs items tag hevent _ ih =>
    cases hid : tag.attribute? "id" with
    | error fault =>
      rw [run, step, hevent] at hrun
      simp [passEmpty, h.opened, hid, Except.map, Except.mapError] at hrun
    | ok id =>
      rw [run_cons_of_ok (h.step_empty hevent hid)] at hrun
      exact List.forall_mem_cons.2 ⟨⟨id, hid⟩, ih (h.ended _) hrun⟩
  | @element start stop inner fs items tag hstart hinner hstop _ ih =>
    cases hid : tag.attribute? "id" with
    | error fault =>
      rw [List.append_assoc, List.cons_append, run, step_opening hstart h.opened, hid] at hrun
      simp at hrun
    | ok id =>
      rw [run_append_of_ok (h.run_element hstart hinner hstop hid)] at hrun
      exact List.forall_mem_cons.2 ⟨⟨id, hid⟩, ih (h.ended _) hrun⟩

/-! ## The whole document -/

/-- Outside the root, and with nothing pending, only tags matter. -/
theorem run_outside {o : Outline} {fs : List Found} (hfs : ∀ f ∈ fs, f.isTag = false)
    (hopened : o.opened = []) (hcomment : o.comment = none) (hcurrent : o.current = none) :
    o.run fs = (o, none) := by
  have hcarry : ∀ text, o.carry text = o := by
    intro text
    cases o
    simp_all [Outline.carry]
  induction fs with
  | nil => rfl
  | cons f fs ih =>
    have htag := hfs f List.mem_cons_self
    have hstep : o.step f = .ok o := by
      rw [step]
      cases hevent : f.event <;> simp_all [Found.isTag, note, data]
    rw [run_cons_of_ok hstep]
    exact ih fun g hg => hfs g (List.mem_cons_of_mem _ hg)

/-- The outline behind the start tag of a root. -/
theorem step_root {f : Found} {tag : Tag} (hevent : f.event = .opening tag) :
    step {} f = .ok { opened := [tag.name], roots := [tag] } := by
  rw [step, hevent]
  rfl

theorem between_root (tag : Tag) :
    Between { opened := [tag.name], roots := [tag] } tag.name [] where
  opened := rfl
  current := rfl
  comment := rfl
  quiet := by simp

/-- The end tag of the root ends the last group. -/
theorem Between.step_stop (h : o.Between root pending) (hevent : f.event = .closing root) :
    o.step f = .ok { o with
      opened := []
      comment := none
      children := o.children ++ (Item.child? pending).toList } := by
  rw [step, hevent]
  simp only [leave, h.opened, h.detach, bne_self_eq_false, Bool.false_eq_true, if_false]

/-- **The children in the outline of a document with one root** are those
that its items make up. -/
theorem run_of_rooted {events : List Found} {tag : Tag} {items : List Item}
    (h : Rooted events tag items) (hlegible : ∀ item ∈ items, item.Legible) :
    run {} events = ({ roots := [tag], children := Item.children items }, none) := by
  cases h with
  | @content before inner behind start stop _ _ hbefore hstart hcontent hstop hbehind =>
    obtain ⟨done, last, hgroups, next, hrun, hnext, hroots, hchildren⟩ :=
      (between_root tag).run_content hcontent hlegible
    have hitems : done.filterMap Item.child? ++ (Item.child? last).toList
        = Item.children items := by
      rw [Item.children, ← List.nil_append items, hgroups, List.filterMap_append]
      cases hlast : Item.child? last <;> simp [hlast]
    have hend : next.run (stop :: behind)
        = ({ roots := [tag], children := Item.children items }, none) := by
      rw [run_cons_of_ok (hnext.step_stop hstop), run_outside hbehind] <;>
        simp [hnext.current, hroots, hchildren, hitems]
    rw [run_append_of_ok (run_outside hbefore rfl rfl rfl), run_cons_of_ok (step_root hstart),
      run_append_of_ok hrun, hend]
  | @empty before behind f _ hbefore hevent hbehind =>
    have hstep : step {} f = .ok { roots := [tag] } := by
      rw [step, hevent]
      rfl
    rw [run_append_of_ok (run_outside hbefore rfl rfl rfl), run_cons_of_ok hstep,
      run_outside hbehind rfl rfl rfl]
    rfl

/-- What has been read without a fault is legible. -/
theorem legible_of_run {events : List Found} {tag : Tag} {items : List Item} {last : Outline}
    (h : Rooted events tag items) (hrun : run {} events = (last, none)) :
    ∀ item ∈ items, item.Legible := by
  cases h with
  | @content before inner behind start stop _ _ hbefore hstart hcontent hstop hbehind =>
    rw [run_append_of_ok (run_outside hbefore rfl rfl rfl),
      run_cons_of_ok (step_root hstart)] at hrun
    obtain ⟨mid, hmid, -⟩ := exists_run_of_append hrun
    exact (between_root tag).legible_of_run hcontent hmid
  | empty => simp

end Outline

end TableMapper.Markup
