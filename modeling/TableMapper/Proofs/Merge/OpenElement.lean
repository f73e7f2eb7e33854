import TableMapper.Proofs.Merge.KeptContent
import TableMapper.Proofs.Text.Occurrences

/-!
# Elements that a merge keeps or loses

An element directly in an existing root that the fresh document does not
replace belongs to the merged document. **A merge that succeeds keeps all
such elements exactly when the existing document does not end inside of
one** (`mergeInto_keeps_iff`). What a document that is cut off inside an
element lacks is only the end tag, and a missing end tag at the end of the
text is no fault, so that the merge succeeds without the element
(`mergeInto_findRecent`).
-/

namespace TableMapper.Markup

variable {fresh : Document} {existing merged : String}

/-! ## What a piece does to the outline -/

namespace Outline

@[simp] theorem opened_carry (o : Outline) (text : List Char) : (o.carry text).opened = o.opened :=
  rfl

@[simp] theorem children_carry (o : Outline) (text : List Char) :
    (o.carry text).children = o.children := rfl

@[simp] theorem opened_detach (o : Outline) : o.detach.opened = o.opened := by
  unfold detach
  split <;> rfl

theorem children_prefix_detach (o : Outline) : o.children <+: o.detach.children := by
  unfold detach
  split
  · exact List.prefix_rfl
  · exact List.prefix_append _ _

/-- **A piece follows the open elements, and changes no child that is
complete.** -/
structure Follows (o : Outline) (event : Event) (next : Outline) : Prop where
  opened : event.openAfter o.opened = some next.opened
  children : o.children <+: next.children

theorem follows_enter {o next : Outline} {tag : Tag} {text : List Char}
    (h : o.enter tag text = .ok next) : o.Follows (.opening tag) next := by
  unfold enter at h
  split at h
  next hopened =>
    obtain rfl := Except.ok.inj h
    exact ⟨by rw [hopened]; rfl, List.prefix_rfl⟩
  next root hopened =>
    cases hid : tag.attribute? "id" with
    | error fault => simp [hid, Except.map] at h
    | ok id =>
      rw [hid] at h
      obtain rfl := Except.ok.inj h
      exact ⟨by rw [hopened]; rfl, List.prefix_rfl⟩
  · obtain rfl := Except.ok.inj h
    exact ⟨rfl, List.prefix_rfl⟩

theorem follows_passEmpty {o next : Outline} {tag : Tag} {text : List Char}
    (h : o.passEmpty tag text = .ok next) : o.Follows (.empty tag) next := by
  unfold passEmpty at h
  split at h
  · obtain rfl := Except.ok.inj h
    exact ⟨rfl, List.prefix_rfl⟩
  · cases hid : tag.attribute? "id" with
    | error fault => simp [hid, Except.map] at h
    | ok id =>
      rw [hid] at h
      obtain rfl := Except.ok.inj h
      exact ⟨rfl, List.prefix_append _ _⟩
  · obtain rfl := Except.ok.inj h
    exact ⟨rfl, List.prefix_rfl⟩

theorem follows_leave {o next : Outline} {name text : List Char}
    (h : o.leave name text = some next) : o.Follows (.closing name) next := by
  unfold leave at h
  split at h
  · simp at h
  next inner below hopened =>
    extract_lets carried at h
    by_cases hname : inner = name
    · have hbelow : Event.openAfter o.opened (.closing name) = some below := by
        rw [hopened, Event.openAfter, if_pos hname]
      rw [if_neg (by simpa using hname)] at h
      split at h
      · obtain rfl := Option.some.inj h
        exact ⟨hbelow, children_prefix_detach o⟩
      · obtain rfl := Option.some.inj h
        exact ⟨hbelow, List.prefix_append _ _⟩
      · obtain rfl := Option.some.inj h
        exact ⟨hbelow, List.prefix_rfl⟩
    · rw [if_pos (by simpa using hname)] at h
      simp at h

theorem follows_of_step {o next : Outline} {f : Found} (h : o.step f = .ok next) :
    o.Follows f.event next := by
  rw [step] at h
  cases hevent : f.event with
  | opening tag =>
    rw [hevent] at h
    cases henter : o.enter tag f.text with
    | error fault => simp [henter, Except.mapError] at h
    | ok mid =>
      simp only [henter, Except.mapError] at h
      obtain rfl := Except.ok.inj h
      exact follows_enter henter
  | empty tag =>
    rw [hevent] at h
    cases hpass : o.passEmpty tag f.text with
    | error fault => simp [hpass, Except.mapError] at h
    | ok mid =>
      simp only [hpass, Except.mapError] at h
      obtain rfl := Except.ok.inj h
      exact follows_passEmpty hpass
  | closing name =>
    rw [hevent] at h
    cases hleave : o.leave name f.text with
    | none => simp [hleave] at h
    | some mid =>
      simp only [hleave] at h
      obtain rfl := Except.ok.inj h
      exact follows_leave hleave
  | comment =>
    rw [hevent] at h
    obtain rfl := Except.ok.inj h
    unfold note
    split <;> exact ⟨rfl, List.prefix_rfl⟩
  | text content =>
    rw [hevent] at h
    obtain rfl := Except.ok.inj h
    unfold data
    split
    · split
      · exact ⟨(congrArg some o.opened_detach).symm, children_prefix_detach o⟩
      · exact ⟨rfl, List.prefix_rfl⟩
    · exact ⟨rfl, List.prefix_rfl⟩
  | other =>
    rw [hevent] at h
    obtain rfl := Except.ok.inj h
    exact ⟨rfl, List.prefix_rfl⟩

/-- **Children that have been read stay.** -/
theorem children_prefix_of_run {o last : Outline} {fs : List Found} (h : o.run fs = (last, none)) :
    o.children <+: last.children := by
  induction fs generalizing o with
  | nil =>
    obtain rfl := (Prod.mk.inj h).1
    exact List.prefix_rfl
  | cons f fs ih =>
    rw [run] at h
    split at h
    · simp at h
    next mid hstep => exact (follows_of_step hstep).children.trans (ih h)

/-- **The outline follows the elements that are open.** -/
theorem openAfter_opened_of_run {o last : Outline} {fs : List Found} (h : o.run fs = (last, none)) :
    openAfter o.opened fs = some last.opened := by
  induction fs generalizing o with
  | nil =>
    obtain rfl := (Prod.mk.inj h).1
    rfl
  | cons f fs ih =>
    rw [run] at h
    split at h
    · simp at h
    next mid hstep =>
      rw [openAfter_cons, (follows_of_step hstep).opened]
      exact ih h

end Outline

/-! ## Elements of the root -/

/-- **A start tag opens an element directly in a root**, and the fresh
document has no element with its `id`. -/
structure OpensUnreplaced (fresh : Document) (before : List Found) (start : Found) (tag : Tag) :
    Prop where
  opens : start.event = .opening tag
  inRoot : ∃ root, openAfter [] before = some [root]
  unreplaced : ∀ id, tag.attribute? "id" = .ok (some id) → id ∉ fresh.ids

/-- **Every element of the root that is not replaced stands in the merged
document**, from its start tag to its end tag. -/
def KeepsElements (fresh : Document) (events : List Found) (merged : String) : Prop :=
  ∀ before start tag behind, events = before ++ start :: behind →
    OpensUnreplaced fresh before start tag →
    ∃ inner stop after, behind = inner ++ stop :: after ∧ Nested inner ∧
      stop.event = .closing tag.name ∧ texts (start :: inner ++ [stop]) <:+: merged.toList

/-- The document ends inside an element of the root that is not replaced. -/
def EndsInside (fresh : Document) (events : List Found) : Prop :=
  ∃ before start tag behind, events = before ++ start :: behind ∧
    OpensUnreplaced fresh before start tag ∧ ∃ names, openAfter [] behind = some names

/-- What a document takes over stands in its text. -/
theorem infix_render {kept : List Outline.Child} {child : Outline.Child} (h : child ∈ kept) :
    child.text <:+: (fresh.withChildren kept).render.toList := by
  have hnode : Node.raw (String.ofList child.text) ∈ (fresh.withChildren kept).root.children :=
    List.mem_append_right _ (List.mem_map_of_mem (List.mem_map_of_mem h))
  have hline : child.text <:+:
      (Node.render 1 (.raw (String.ofList child.text)) ++ "\n").toList := by
    rw [Node.render, String.toList_append, String.toList_append, String.toList_ofList]
    exact ⟨_, _, rfl⟩
  have hlines : (Node.render 1 (.raw (String.ofList child.text)) ++ "\n").toList <:+:
      ("\n".intercalate ((fresh.withChildren kept).root.children.map fun n =>
        Node.render 1 n ++ "\n")).toList := by
    rw [String.toList_intercalate]
    exact Text.infix_intercalate (List.mem_map_of_mem (List.mem_map_of_mem hnode))
  refine hline.trans (hlines.trans ?_)
  unfold Document.render
  split
  next hnil =>
    rw [hnil] at hnode
    simp at hnode
  · rw [String.toList_append]
    refine List.IsInfix.trans ?_ (List.suffix_append _ _).isInfix
    rw [String.append_assoc, String.append_assoc, String.toList_append, String.toList_append]
    exact List.infix_append _ _ _

/-- **A merge that succeeds keeps the elements of the root**, unless the
document ends inside of one. -/
theorem mergeInto_keeps_iff (hmark : existing.toList.head? ≠ some '\uFEFF')
    (hmerge : fresh.mergeInto existing = .ok merged) :
    KeepsElements fresh (Reading.ofText 0 existing.toList).events merged ↔
      ¬ EndsInside fresh (Reading.ofText 0 existing.toList).events := by
  obtain ⟨o, ho, -, -, rfl⟩ := mergeInto_eq_ok_iff.1 hmerge
  obtain ⟨hrun, -⟩ := Outline.run_of_ofDocument ho
  rw [Reading.ofDocument_of_ne hmark] at hrun
  constructor
  · rintro hkeeps ⟨before, start, tag, behind, hsplit, hopens, names, hnames⟩
    obtain ⟨inner, stop, after, rfl, hinner, hstop, -⟩ := hkeeps _ _ _ _ hsplit hopens
    rw [openAfter_append, hinner, Option.bind_some, openAfter_cons, hstop] at hnames
    simp [Event.openAfter] at hnames
  · intro hends before start tag behind hsplit hopens
    obtain ⟨root, hroot⟩ := hopens.inRoot
    rw [hsplit] at hrun
    obtain ⟨mid, hbefore, hmid⟩ := Outline.exists_run_of_append hrun
    have hopened : mid.opened = [root] :=
      (Option.some.inj (hroot.symm.trans (Outline.openAfter_opened_of_run hbefore))).symm
    cases hid : tag.attribute? "id" with
    | error fault =>
      rw [Outline.run, Outline.step_opening hopens.opens hopened, hid] at hmid
      simp at hmid
    | ok id =>
      have hbehind := hmid
      rw [Outline.run_cons_of_ok ((Outline.step_opening hopens.opens hopened).trans (by rw [hid]))]
        at hbehind
      -- the element is either still open at the end, or closed by an end tag in front of which it
      -- is kept
      rcases Outline.openAfter_of_run hbehind (List.nil_append _).symm (List.cons_ne_nil _ _) with
        ⟨names, hnames⟩ | ⟨inner, stop, after, rfl, hinner, hstop⟩
      · exact absurd ⟨before, start, tag, behind, hsplit, hopens, names, hnames⟩ hends
      · refine ⟨inner, stop, after, rfl, hinner, hstop, ?_⟩
        have helement := Outline.run_element hopens.opens hinner hstop hid hopened
        have hcut : start :: (inner ++ stop :: after) = start :: inner ++ [stop] ++ after := by simp
        rw [hcut, Outline.run_append_of_ok helement] at hmid
        have hchild := (Outline.children_prefix_of_run hmid).subset
          (List.mem_append_right mid.children List.mem_cons_self)
        have hkept : mid.begun id (texts (start :: inner ++ [stop]))
            ∈ fresh.unreplaced o.children := by
          refine List.mem_filter.2 ⟨hchild, ?_⟩
          cases id with
          | none => rfl
          | some id => simpa [Document.replaces, Outline.begun] using hopens.unreplaced id hid
        exact (List.suffix_append _ _).isInfix.trans (infix_render hkept)

/-- The merge loses an element in which the existing document ends. -/
theorem not_keepsElements_findRecent :
    ¬ KeepsElements Document.tableNameMapper
        (Reading.ofText 0
          "<mapper namespace=\"a.OrdersMapper\"><select id=\"findRecent\">select 1".toList).events
        Document.tableNameMapper.render := by
  have hevents : (Reading.ofText 0
        "<mapper namespace=\"a.OrdersMapper\"><select id=\"findRecent\">select 1".toList).events
      = [⟨.opening ⟨"mapper".toList, " namespace=\"a.OrdersMapper\"".toList⟩, 0,
          "<mapper namespace=\"a.OrdersMapper\">".toList⟩] ++
        ⟨.opening ⟨"select".toList, " id=\"findRecent\"".toList⟩, 35,
          "<select id=\"findRecent\">".toList⟩ ::
        [⟨.text "select 1".toList, 59, "select 1".toList⟩] := by
    decide +kernel
  intro hkeeps
  refine (mergeInto_keeps_iff (by decide +kernel) (by decide +kernel)).1 hkeeps
    ⟨_, _, _, _, hevents, ⟨rfl, ⟨"mapper".toList, by decide +kernel⟩, ?_⟩, [], by decide +kernel⟩
  have hid : Tag.attribute? ⟨"select".toList, " id=\"findRecent\"".toList⟩ "id"
      = .ok (some "findRecent") := by
    decide +kernel
  rintro id h
  obtain rfl := Option.some.inj (Except.ok.inj (hid.symm.trans h))
  decide +kernel

/-- **An element that is cut off is lost**: a document that ends inside a
statement is merged into, and nothing of the statement is written. -/
theorem mergeInto_findRecent :
    Document.tableNameMapper.mergeInto
        "<mapper namespace=\"a.OrdersMapper\">\n  <select id=\"findRecent\">\n    select * from orders\n"
      = .ok Document.tableNameMapper.render ∧
    ¬ "findRecent".toList <:+: Document.tableNameMapper.render.toList := by
  decide +kernel

end TableMapper.Markup
