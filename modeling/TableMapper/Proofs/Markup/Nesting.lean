import TableMapper.Markup.Outline
import TableMapper.Proofs.Markup.Pieces

/-!
# Elements in the outline of a document

The outline of a document is computed piece by piece, but its children are
elements. This module says what the pieces of one element do to the outline
together: **a child of the root, read to its end tag, becomes one child of
the outline, with its text unchanged** (`run_element`). Everything below
that depends on one notion, the names of the elements that a part of a
document leaves open (`openAfter`): a part that closes all it opens, and
nothing else, only adds its text to the child that is being read
(`run_inside`).
-/

namespace TableMapper.Markup

/-! ## Open elements -/

/-- The elements that are open behind a piece, given those open in front of
it, the innermost first; none if it is an end tag that does not fit. -/
def Event.openAfter (opened : List (List Char)) : Event → Option (List (List Char))
  | .opening tag => some (tag.name :: opened)
  | .closing name =>
    match opened with
    | [] => none
    | inner :: outer => if inner = name then some outer else none
  | _ => some opened

/-- **The elements that are open behind a part of a document.** -/
def openAfter (opened : List (List Char)) (fs : List Found) : Option (List (List Char)) :=
  fs.foldlM (fun opened f => f.event.openAfter opened) opened

/-- A part of a document that closes the elements it opens, and no others. -/
def Nested (fs : List Found) : Prop :=
  openAfter [] fs = some []

@[simp] theorem openAfter_nil (opened : List (List Char)) : openAfter opened [] = some opened := rfl

theorem openAfter_cons (opened : List (List Char)) (f : Found) (fs : List Found) :
    openAfter opened (f :: fs) = (f.event.openAfter opened).bind (openAfter · fs) := rfl

theorem openAfter_append (opened : List (List Char)) (fs gs : List Found) :
    openAfter opened (fs ++ gs) = (openAfter opened fs).bind (openAfter · gs) := by
  rw [openAfter, List.foldlM_append]
  rfl

/-- What a piece leaves open does not depend on what encloses it. -/
theorem Event.openAfter_append_right {event : Event} {names left : List (List Char)}
    (h : event.openAfter names = some left) (base : List (List Char)) :
    event.openAfter (names ++ base) = some (left ++ base) := by
  cases event with
  | closing name =>
    cases names with
    | nil => simp [Event.openAfter] at h
    | cons inner outer =>
      obtain ⟨hname, rfl⟩ : inner = name ∧ outer = left := by simpa [Event.openAfter] using h
      simp [Event.openAfter, hname]
  | _ =>
    rw [← Option.some.inj h]
    rfl

/-- What a part leaves open does not depend on what encloses it. -/
theorem openAfter_append_right {names left : List (List Char)} {fs : List Found}
    (h : openAfter names fs = some left) (base : List (List Char)) :
    openAfter (names ++ base) fs = some (left ++ base) := by
  induction fs generalizing names with
  | nil => rw [← Option.some.inj h]; rfl
  | cons f fs ih =>
    rw [openAfter_cons] at h ⊢
    obtain ⟨mid, hmid, hfs⟩ := Option.bind_eq_some_iff.1 h
    rw [Event.openAfter_append_right hmid, Option.bind_some]
    exact ih hfs

theorem nested_nil : Nested [] := rfl

theorem Nested.append {fs gs : List Found} (hfs : Nested fs) (hgs : Nested gs) :
    Nested (fs ++ gs) := by
  rw [Nested, openAfter_append, hfs]
  exact hgs

/-- A nested part leaves open what was open in front of it. -/
theorem Nested.openAfter {fs : List Found} (h : Nested fs) (base : List (List Char)) :
    openAfter base fs = some base :=
  openAfter_append_right h base

/-- The pieces of an element are nested. -/
theorem Nested.element {start stop : Found} {inner : List Found} {tag : Tag}
    (hstart : start.event = .opening tag) (hinner : Nested inner)
    (hstop : stop.event = .closing tag.name) : Nested (start :: inner ++ [stop]) := by
  rw [List.cons_append, Nested, openAfter_cons, hstart]
  show Markup.openAfter [tag.name] (inner ++ [stop]) = some []
  rw [openAfter_append, hinner.openAfter, Option.bind_some, openAfter_cons, hstop]
  simp [Event.openAfter]

/-! ## Inside a child -/

namespace Outline

@[simp] theorem carry_nil (o : Outline) : o.carry [] = o := by
  cases o with
  | mk opened roots comment current children =>
    cases comment <;> cases current <;> simp [carry]

@[simp] theorem carry_carry (o : Outline) (s t : List Char) :
    (o.carry s).carry t = o.carry (s ++ t) := by
  cases o with
  | mk opened roots comment current children =>
    cases comment <;> cases current <;> simp [carry]

theorem run_cons_of_ok {o next : Outline} {f : Found} (h : o.step f = .ok next) (fs : List Found) :
    o.run (f :: fs) = next.run fs := by
  rw [run, h]

theorem run_append_of_ok {o next : Outline} {fs : List Found} (h : o.run fs = (next, none))
    (gs : List Found) : o.run (fs ++ gs) = next.run gs := by
  induction fs generalizing o with
  | nil =>
    obtain rfl : o = next := congrArg Prod.fst h
    rfl
  | cons f fs ih =>
    rw [run] at h
    rw [List.cons_append, run]
    split at h
    · simp at h
    · exact ih h

/-- If a whole is read without a fault, so is every part of it. -/
theorem exists_run_of_append {o last : Outline} {fs gs : List Found}
    (h : o.run (fs ++ gs) = (last, none)) :
    ∃ mid, o.run fs = (mid, none) ∧ mid.run gs = (last, none) := by
  induction fs generalizing o with
  | nil => exact ⟨o, rfl, h⟩
  | cons f fs ih =>
    rw [List.cons_append, run] at h
    rw [run]
    split at h
    · simp at h
    · exact ih h

theorem exists_append_eq_cons_cons {α : Type} (names : List α) {base : List α}
    (hbase : 2 ≤ base.length) : ∃ first second rest, names ++ base = first :: second :: rest := by
  match hlist : names ++ base with
  | first :: second :: rest => exact ⟨first, second, rest, rfl⟩
  | [] | [_] =>
    have hlength := congrArg List.length hlist
    rw [List.length_append] at hlength
    simp only [List.length_nil, List.length_cons] at hlength
    omega

/-- A piece below a child of the root only adds its text to the child. -/
theorem step_inside {o : Outline} {f : Found} {names left base : List (List Char)}
    (h : f.event.openAfter names = some left) (hopened : o.opened = names ++ base)
    (hbase : 2 ≤ base.length) :
    o.step f = .ok { o.carry f.text with opened := left ++ base } := by
  -- at least two elements are open, the root and its child, so the outline only carries the text of
  -- the piece along
  obtain ⟨first, second, rest, hdeep⟩ := exists_append_eq_cons_cons names hbase
  have hkeep : { o.carry f.text with opened := names ++ base } = o.carry f.text := by
    rw [← hopened]
    rfl
  rw [hdeep] at hopened
  cases hevent : f.event with
  | opening tag =>
    rw [hevent] at h
    obtain rfl := Option.some.inj h
    rw [List.cons_append, hdeep, step, hevent]
    simp only [enter, hopened]
    rfl
  | closing name =>
    rw [hevent] at h
    cases names with
    | nil => simp [Event.openAfter] at h
    | cons inner outer =>
      obtain ⟨rfl, rfl⟩ : inner = name ∧ outer = left := by simpa [Event.openAfter] using h
      rw [List.cons_append] at hdeep
      obtain ⟨rfl, hbelow⟩ := List.cons.inj hdeep
      obtain ⟨third, fourth, tail, houter⟩ := exists_append_eq_cons_cons outer hbase
      rw [step, hevent]
      simp only [leave, hopened, ← hbelow, houter]
      simp
  | empty tag =>
    rw [hevent] at h
    obtain rfl := Option.some.inj h
    rw [hkeep, step, hevent]
    simp only [passEmpty, hopened]
    rfl
  | comment =>
    rw [hevent] at h
    obtain rfl := Option.some.inj h
    rw [hkeep, step, hevent]
    simp only [note, hopened]
  | text content =>
    rw [hevent] at h
    obtain rfl := Option.some.inj h
    rw [hkeep, step, hevent]
    simp only [data, hopened]
  | other =>
    rw [hevent] at h
    obtain rfl := Option.some.inj h
    rw [hkeep, step, hevent]

/-- **What stands inside a child of the root is added to the child.** -/
theorem run_inside {o : Outline} {fs : List Found} {names left base : List (List Char)}
    (h : openAfter names fs = some left) (hopened : o.opened = names ++ base)
    (hbase : 2 ≤ base.length) :
    o.run fs = ({ o.carry (texts fs) with opened := left ++ base }, none) := by
  induction fs generalizing o names with
  | nil =>
    obtain rfl := Option.some.inj h
    rw [texts_nil, carry_nil, ← hopened]
    rfl
  | cons f fs ih =>
    rw [openAfter_cons] at h
    obtain ⟨mid, hmid, hfs⟩ := Option.bind_eq_some_iff.1 h
    rw [run_cons_of_ok (step_inside hmid hopened hbase), ih hfs rfl, texts_cons, ← carry_carry]
    rfl

/-- An end tag that has been read without a fault is that of the innermost
element. -/
theorem head?_opened_of_run {o last : Outline} {f : Found} {fs : List Found} {name : List Char}
    (h : o.run (f :: fs) = (last, none)) (hevent : f.event = .closing name) :
    o.opened.head? = some name := by
  rw [run, step, hevent] at h
  unfold leave at h
  split at h
  · simp at h
  next hstep =>
    cases hopened : o.opened with
    | nil => simp [hopened] at hstep
    | cons inner outer =>
      rw [hopened] at hstep
      by_cases hname : inner = name
      · rw [hname]
        rfl
      · simp [hname] at hstep

/-- Conversely, what has been read without a fault inside a child either
stays inside it or holds its end tag. -/
theorem openAfter_of_run {o last : Outline} {fs : List Found} {names base : List (List Char)}
    {name : List Char} (h : o.run fs = (last, none)) (hopened : o.opened = names ++ name :: base)
    (hbase : base ≠ []) :
    (∃ left, openAfter names fs = some left) ∨
      ∃ inner stop behind, fs = inner ++ stop :: behind ∧ openAfter names inner = some [] ∧
        stop.event = .closing name := by
  induction fs generalizing o names with
  | nil => exact .inl ⟨names, rfl⟩
  | cons f fs ih =>
    have hlen : 2 ≤ (name :: base).length := by
      have := List.length_pos_iff.2 hbase
      rw [List.length_cons]
      omega
    cases hstep : f.event.openAfter names with
    | some mid =>
      rw [run_cons_of_ok (step_inside hstep hopened hlen)] at h
      rcases ih h rfl with ⟨left, hleft⟩ | ⟨inner, stop, behind, rfl, hinner, hstop⟩
      · exact .inl ⟨left, by rw [openAfter_cons, hstep]; exact hleft⟩
      · refine .inr ⟨f :: inner, stop, behind, rfl, ?_, hstop⟩
        rw [openAfter_cons, hstep]
        exact hinner
    | none =>
      -- the end tag of the child itself, or a fault
      cases hevent : f.event with
      | closing closed =>
        rw [hevent] at hstep
        have hfits := head?_opened_of_run h hevent
        cases names with
        | nil =>
          refine .inr ⟨[], f, fs, rfl, rfl, ?_⟩
          rw [hopened] at hfits
          rw [hevent, Option.some.inj hfits]
        | cons inner outer =>
          rw [hopened] at hfits
          simp [Event.openAfter, Option.some.inj hfits] at hstep
      | _ => simp [hevent, Event.openAfter] at hstep

/-! ## A child -/

/-- A start tag directly below the root begins a child. -/
theorem step_opening {o : Outline} {f : Found} {tag : Tag} {root : List Char}
    (hevent : f.event = .opening tag) (hopened : o.opened = [root]) :
    o.step f = match tag.attribute? "id" with
      | .error _ => .error .attribute
      | .ok id => .ok { o with
          opened := [tag.name, root], comment := none, current := some (o.begun id f.text) } := by
  rw [step, hevent]
  simp only [enter, hopened]
  cases tag.attribute? "id" <;> rfl

/-- **An element directly below the root becomes a child of the outline**,
with the comments in front of it. -/
theorem run_element {o : Outline} {start stop : Found} {inner : List Found} {tag : Tag}
    {root : List Char} {id : Option String} (hstart : start.event = .opening tag)
    (hinner : Nested inner) (hstop : stop.event = .closing tag.name)
    (hid : tag.attribute? "id" = .ok id) (hopened : o.opened = [root]) :
    o.run (start :: inner ++ [stop])
      = ({ o with
            comment := none
            current := none
            children := o.children ++ [o.begun id (texts (start :: inner ++ [stop]))] }, none) := by
  have hbegin : o.step start = .ok { o with
      opened := [tag.name, root], comment := none, current := some (o.begun id start.text) } := by
    rw [step_opening hstart hopened, hid]
  have hopen : openAfter [] inner = some [] := hinner
  rw [List.cons_append, run_cons_of_ok hbegin,
    run_append_of_ok (run_inside hopen (List.nil_append _).symm (le_refl 2))]
  rw [run, step, hstop]
  simp [leave, carry, begun, run, hopened]

end Outline

end TableMapper.Markup
