import Mathlib.Data.List.DropRight
import TableMapper.Proofs.Markup.WrittenDocument

/-!
# A child of an existing root stands on its own

What a merge takes over from an existing document is cut out of its text.
This module says that the cuts are at the right places: **the text of a
child of a root, read by itself, is that child again** (`solid_of_mem`).
The text of a child is an infix of the text of its root, because its group
is an infix of the items (`groups_infix`), and it ends with markup, because
an element ends it or the blanks behind its last comment are cut off.
-/

namespace TableMapper.Markup

namespace Item

/-- An item that is character data. -/
def isData : Item → Bool
  | data _ => true
  | _ => false

/-! ## A group in its root -/

/-- What holds of every group of items: no element stands in it but at its
end, and nothing separates its items. -/
structure Joined (group : List Item) : Prop where
  ended : ∀ item ∈ group.dropLast, item.isElement = false
  joined : ∀ item ∈ group, item.separates = false

theorem Joined.cons {item : Item} {group : List Item} (h : Joined group) (hitem : item.Quiet) :
    Joined (item :: group) where
  ended := by
    cases group with
    | nil => simp
    | cons next group =>
      rw [List.dropLast_cons_cons]
      exact List.forall_mem_cons.2 ⟨hitem.1, h.ended⟩
  joined := List.forall_mem_cons.2 ⟨hitem.2, h.joined⟩

/-- The first group stands in front, and the others stand behind it. -/
theorem exists_groups (items : List Item) :
    ∃ group more, groups items = group :: more ∧ group <+: items ∧ Joined group ∧
      ∀ other ∈ more, other <:+: items ∧ Joined other := by
  have hnil : Joined [] := ⟨by simp, by simp⟩
  induction items with
  | nil => exact ⟨[], [], rfl, List.prefix_rfl, hnil, by simp⟩
  | cons item items ih =>
    obtain ⟨group, more, hgroups, hbegins, hjoined, hmore⟩ := ih
    have hall : ∀ other ∈ group :: more, other <:+: item :: items ∧ Joined other := by
      intro other hother
      rcases List.mem_cons.1 hother with rfl | hother
      · exact ⟨List.infix_cons hbegins.isInfix, hjoined⟩
      · exact ⟨List.infix_cons (hmore other hother).1, (hmore other hother).2⟩
    by_cases helement : item.isElement = true
    · have hsingle : Joined [item] := by
        refine ⟨by simp, ?_⟩
        cases item <;> simp_all [isElement, separates]
      exact ⟨[item], groups items, by rw [groups, helement]; rfl, by simp, hsingle,
        by rwa [hgroups]⟩
    · by_cases hseparates : item.separates = true
      · refine ⟨[], groups items, ?_, List.nil_prefix, hnil, by rwa [hgroups]⟩
        rw [groups, hseparates]
        simp [helement]
      · refine ⟨item :: group, more, ?_, (List.cons_prefix_cons.2 ⟨rfl, hbegins⟩),
          hjoined.cons ⟨by simpa using helement, by simpa using hseparates⟩,
          fun other hother => hall other (List.mem_cons_of_mem _ hother)⟩
        rw [groups, hgroups]
        simp [helement, hseparates]

/-- **A group is a part of the items of its root.** -/
theorem groups_infix {items group : List Item} (h : group ∈ groups items) :
    group <:+: items ∧ Joined group := by
  obtain ⟨first, more, hgroups, hbegins, hjoined, hmore⟩ := exists_groups items
  rw [hgroups] at h
  rcases List.mem_cons.1 h with rfl | h
  · exact ⟨hbegins.isInfix, hjoined⟩
  · exact hmore group h

/-! ## The child of a group -/

/-- Every list ends with data, possibly none, behind an item that is not. -/
theorem exists_trimmed (items : List Item) :
    ∃ front blanks, items = front ++ blanks ∧ (∀ item ∈ blanks, item.isData = true) ∧
      ∀ item, front.getLast? = some item → item.isData = false := by
  refine ⟨(items.reverse.dropWhile isData).reverse,
    (items.reverse.takeWhile isData).reverse, ?_, ?_, ?_⟩
  · rw [← List.reverse_append, List.takeWhile_append_dropWhile, List.reverse_reverse]
  · intro item hitem
    exact List.mem_takeWhile_imp (List.mem_reverse.1 hitem)
  · intro item hitem
    rw [List.getLast?_reverse] at hitem
    have hhead := List.head?_dropWhile_not isData items.reverse
    rw [hitem] at hhead
    simpa using hhead

theorem child?_own (group : List Item) : child? (own group) = child? group := by
  have hown : own (own group) = own group := List.dropWhile_idempotent _ _
  rw [child?, child?, hown]

theorem Joined.of_infix {group part : List Item} (h : Joined group) (hpart : part <:+: group) :
    Joined part := by
  obtain ⟨front, behind, rfl⟩ := hpart
  refine ⟨fun item hitem => ?_, fun item hitem => h.joined item ?_⟩
  · cases behind with
    | nil =>
      refine h.ended item ?_
      cases hlast : part.getLast? with
      | none =>
        rw [List.getLast?_eq_none_iff.1 hlast] at hitem
        simp at hitem
      | some last =>
        obtain ⟨init, rfl⟩ := List.getLast?_eq_some_iff.1 hlast
        rw [List.dropLast_concat] at hitem
        rw [List.append_nil, ← List.append_assoc, List.dropLast_concat]
        exact List.mem_append_right _ hitem
    | cons next behind =>
      refine h.ended item ?_
      rw [List.dropLast_append_cons]
      exact List.mem_append_left _ (List.mem_append_right _ (List.dropLast_subset _ hitem))
  · exact List.mem_append_left _ (List.mem_append_right _ hitem)

/-- Character data that separates nothing is blank. -/
theorem texts_blank {blanks : List Item} (hdata : ∀ item ∈ blanks, item.isData = true)
    (hjoined : ∀ item ∈ blanks, item.separates = false) :
    ∀ c ∈ texts blanks, Text.isBlank c = true := by
  intro c hc
  obtain ⟨item, hitem, hmem⟩ := List.mem_flatMap.1 hc
  have hseparates := hjoined item hitem
  cases item with
  | data text =>
    have hblank : text.all Text.isBlank = true := by
      have := (Bool.or_eq_false_iff.1 hseparates).1
      simpa using this
    exact List.all_eq_true.1 hblank c hmem
  | _ => exact absurd (hdata _ hitem) (by simp [isData])

/-- Blanks behind comments do not change the child. -/
theorem child?_append_blanks {front blanks : List Item} (hfront : own front = front)
    (hne : front ≠ []) (hquiet : ∀ item ∈ front ++ blanks, item.Quiet)
    (hown : own (front ++ blanks) = front ++ blanks)
    (hblank : ∀ c ∈ texts blanks, Text.isBlank c = true) :
    child? (front ++ blanks) = child? front := by
  rw [child?_of_quiet hquiet, child?_of_quiet fun i hi => hquiet i (List.mem_append_left _ hi),
    pendingText, pendingText, hfront, hown, if_neg hne,
    if_neg fun h => hne (List.append_eq_nil_iff.1 h).1, texts_append, Option.map_some,
    Option.map_some, Text.trimEnd_append_blanks hblank]

/-- **The child of a group is that of the items of the group which make it
up**: those from the first comment or element on, without the blanks at the
end. -/
theorem exists_whole {group : List Item} {child : Outline.Child} (hjoined : Joined group)
    (h : child? group = some child) :
    ∃ whole, whole <:+: group ∧ Whole whole ∧ child? whole = some child ∧
      ∀ item, whole.getLast? = some item → item.isData = false := by
  obtain ⟨front, blanks, hcut, hdata, hlast⟩ := exists_trimmed (own group)
  have hlies : own group <:+: group := (List.dropWhile_suffix _).isInfix
  have hjoined' := hjoined.of_infix hlies
  obtain ⟨first, rest, hown⟩ : ∃ first rest, own group = first :: rest := by
    cases hown : own group with
    | nil => simp [child?, hown] at h
    | cons first rest => exact ⟨first, rest, rfl⟩
  have hbegins : first.begins = true := by
    have hhead := List.head?_dropWhile_not (!begins ·) group
    rw [← own, hown] at hhead
    simpa using hhead
  obtain ⟨tail, rfl⟩ : ∃ tail, front = first :: tail := by
    cases front with
    | nil =>
      rw [hown] at hcut
      have := hdata first (by rw [← List.nil_append blanks, ← hcut]; exact List.mem_cons_self)
      cases first <;> simp_all [isData, begins]
    | cons other tail =>
      rw [hown] at hcut
      exact ⟨tail, by rw [(List.cons.inj hcut).1]⟩
  have hfront : (first :: tail) <:+: own group := by
    rw [hcut]
    exact (List.prefix_append _ _).isInfix
  have hwhole : Whole (first :: tail) :=
    ⟨⟨first, tail, rfl, hbegins⟩, (hjoined'.of_infix hfront).joined,
      (hjoined'.of_infix hfront).ended⟩
  refine ⟨first :: tail, hfront.trans hlies, hwhole, ?_, hlast⟩
  rw [← h, ← child?_own group]
  by_cases hblanks : blanks = []
  · rw [hcut, hblanks, List.append_nil]
  · -- the blanks at the end of the group show that no element stands in it
    have hquiet : ∀ item ∈ first :: tail ++ blanks, item.Quiet := by
      intro item hitem
      rw [← hcut] at hitem
      refine ⟨?_, hjoined'.joined item hitem⟩
      rw [hcut] at hitem
      rcases List.mem_append.1 hitem with hitem | hitem
      · refine hjoined'.ended item ?_
        rw [hcut, List.dropLast_append_of_ne_nil hblanks]
        exact List.mem_append_left _ hitem
      · have hitemData := hdata item hitem
        cases item <;> simp_all [isData, isElement]
    rw [hcut]
    refine (child?_append_blanks hwhole.own (List.cons_ne_nil _ _) hquiet ?_ ?_).symm
    · rw [List.cons_append, own, List.dropWhile_cons_of_neg (by simp [hbegins])]
    · refine texts_blank hdata fun item hitem => hjoined'.joined item ?_
      rw [hcut]
      exact List.mem_append_right _ hitem

end Item

/-! ## Cutting the content of a root -/

theorem Content.exists_split {fs : List Found} {items more : List Item}
    (h : Content fs (items ++ more)) :
    ∃ gs hs, fs = gs ++ hs ∧ Content gs items ∧ Content hs more := by
  induction items generalizing fs with
  | nil => exact ⟨[], fs, rfl, .nil, h⟩
  | cons item items ih =>
    cases h with
    | comment hevent hrest =>
      obtain ⟨gs, hs, rfl, hgs, hhs⟩ := ih hrest
      exact ⟨_, hs, rfl, .comment hevent hgs, hhs⟩
    | data hevent hrest =>
      obtain ⟨gs, hs, rfl, hgs, hhs⟩ := ih hrest
      exact ⟨_, hs, rfl, .data hevent hgs, hhs⟩
    | other hevent hrest =>
      obtain ⟨gs, hs, rfl, hgs, hhs⟩ := ih hrest
      exact ⟨_, hs, rfl, .other hevent hgs, hhs⟩
    | empty hevent hrest =>
      obtain ⟨gs, hs, rfl, hgs, hhs⟩ := ih hrest
      exact ⟨_, hs, rfl, .empty hevent hgs, hhs⟩
    | element hstart hinner hstop hrest =>
      obtain ⟨gs, hs, rfl, hgs, hhs⟩ := ih hrest
      exact ⟨_, hs, (List.append_assoc _ _ _).symm, .element hstart hinner hstop hgs, hhs⟩

/-- The text of the items is that of the pieces. -/
theorem Content.texts_eq {fs : List Found} {items : List Item} (h : Content fs items) :
    texts fs = Item.texts items := by
  induction h with
  | nil => rfl
  | comment _ _ ih => rw [texts_cons, ih]; rfl
  | data _ _ ih => rw [texts_cons, ih]; rfl
  | other _ _ ih => rw [texts_cons, ih]; rfl
  | empty _ _ ih => rw [texts_cons, ih]; rfl
  | element _ _ _ _ ih => rw [texts_append, ih]; rfl

/-- Items that do not end with data end with markup. -/
theorem Content.isMarkup_getLast? {fs : List Found} {items : List Item} (h : Content fs items)
    (hlast : ∀ item, items.getLast? = some item → item.isData = false) :
    ∀ f, fs.getLast? = some f → f.event.isMarkup = true := by
  intro f hf
  cases hitems : items.getLast? with
  | none =>
    rw [List.getLast?_eq_none_iff.1 hitems] at h
    cases h
    simp at hf
  | some last =>
    obtain ⟨init, rfl⟩ := List.getLast?_eq_some_iff.1 hitems
    obtain ⟨gs, hs, rfl, -, hhs⟩ := h.exists_split
    cases hhs with
    | comment hevent hnil =>
      cases hnil
      rw [List.getLast?_concat] at hf
      rw [← Option.some.inj hf, hevent]
      rfl
    | data => exact absurd (hlast _ hitems) (by simp [Item.isData])
    | other hevent hnil =>
      cases hnil
      rw [List.getLast?_concat] at hf
      rw [← Option.some.inj hf, hevent]
      rfl
    | empty hevent hnil =>
      cases hnil
      rw [List.getLast?_concat] at hf
      rw [← Option.some.inj hf, hevent]
      rfl
    | element _ _ hstop hnil =>
      cases hnil
      rw [List.append_nil, ← List.append_assoc, List.getLast?_concat] at hf
      rw [← Option.some.inj hf, hstop]
      rfl

theorem Reads.opened {f : Found} {fs : List Found} {cs rest : List Char}
    (h : Reads cs (f :: fs) rest) (hmarkup : f.event.isMarkup = true) :
    ∃ back, cs = '<' :: back := by
  cases h with
  | cons start hpiece _ =>
    rcases piece_shape hpiece with ⟨rfl, -, -⟩ | ⟨-, hhead, -⟩
    · simp [Event.isMarkup] at hmarkup
    · obtain ⟨tail, rfl⟩ := List.head?_eq_some_iff.1 hhead
      exact ⟨_, (piece_append hpiece).1.symm⟩

/-- Items that begin with a comment or an element begin with markup. -/
theorem Content.opened {fs : List Found} {items : List Item} {cs rest : List Char}
    (h : Content fs items) (hwhole : Item.Whole items) (hreads : Reads cs fs rest) :
    ∃ back, cs = '<' :: back := by
  obtain ⟨first, more, rfl, hbegins⟩ := hwhole.begins
  cases h with
  | comment hevent => exact hreads.opened (by rw [hevent]; rfl)
  | data => simp [Item.begins] at hbegins
  | other => simp [Item.begins] at hbegins
  | empty hevent => exact hreads.opened (by rw [hevent]; rfl)
  | element hstart => exact hreads.opened (by rw [hstart]; rfl)

theorem Sealed.getLast?_texts {fs : List Found} (h : Sealed fs) (hne : fs ≠ []) :
    (texts fs).getLast? = some '>' := by
  have hsplit := List.dropLast_concat_getLast hne
  have hlast := (h _ (List.getLast?_eq_some_getLast hne)).2
  rw [← hsplit, texts_append, texts_cons, texts_nil, List.append_nil, List.getLast?_append, hlast]
  rfl

/-- The text of the child of a whole that ends with a bracket. -/
theorem Item.Whole.text_eq {items : List Item} {child : Outline.Child} (h : Item.Whole items)
    (hchild : Item.child? items = some child) (hend : (Item.texts items).getLast? = some '>') :
    child.text = Item.texts items := by
  have htrim : Text.trimEnd (Item.texts items) = Item.texts items := by
    obtain ⟨init, hinit⟩ := List.getLast?_eq_some_iff.1 hend
    rw [hinit, Text.trimEnd, List.reverse_append]
    show (List.dropWhile Text.isBlank ('>' :: init.reverse)).reverse = _
    rw [List.dropWhile_cons_of_neg (by decide)]
    simp
  rw [Item.child?, h.own] at hchild
  split at hchild
  · simp at hchild
  · split at hchild
    · rw [← Option.some.inj hchild]
    · rw [← Option.some.inj hchild, htrim]

/-- **The text of a child of an existing root stands on its own.** -/
theorem solid_of_mem {cs rest : List Char} {fs : List Found} {items : List Item}
    {child : Outline.Child} (hreads : Reads cs fs rest) (hrest : rest ≠ [])
    (hcontent : Content fs items) (hlegible : ∀ item ∈ items, item.Legible)
    (h : child ∈ Item.children items) : child.Solid := by
  obtain ⟨group, hgroup, hchild⟩ := List.mem_filterMap.1 h
  obtain ⟨hlies, hjoined⟩ := Item.groups_infix hgroup
  obtain ⟨whole, hpart, hwhole, hchild', hlast⟩ := Item.exists_whole hjoined hchild
  obtain ⟨front, behind, rfl⟩ := hpart.trans hlies
  rw [List.append_assoc] at hcontent
  obtain ⟨before, gs, rfl, -, hgs⟩ := hcontent.exists_split
  obtain ⟨ws, after, rfl, hws, -⟩ := hgs.exists_split
  obtain ⟨mid, -, hmid⟩ := hreads.split
  obtain ⟨back, hwsreads, hafter⟩ := hmid.split
  have hback : back ≠ [] := by
    rintro rfl
    exact hrest (List.append_eq_nil_iff.1 hafter.texts_append).2
  have hsealed := hwsreads.sealed hback (hws.isMarkup_getLast? hlast)
  have hne : ws ≠ [] := by
    rintro rfl
    cases hws
    exact hwhole.ne_nil rfl
  have hown := hwsreads.append_right hsealed []
  have htext := hwhole.text_eq hchild' (by rw [← hws.texts_eq, hsealed.getLast?_texts hne])
  rw [List.append_nil, hws.texts_eq, ← htext] at hown
  refine ⟨hws.opened hwhole hown, ws, whole, hown, hsealed, hws, hwhole, ?_, hchild'⟩
  intro item hitem
  exact hlegible item (List.mem_append_left _ (List.mem_append_right _ hitem))

end TableMapper.Markup
