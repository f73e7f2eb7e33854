import TableMapper.Markup.Event
import TableMapper.Proofs.Text.Trimming

/-!
# A piece does not depend on what follows it

A document is cut into pieces from the left, and where one piece ends is
decided by the piece alone: **markup that ends with `>` is the same piece
in front of any rest** (`piece_append_right`), and character data is the
same piece in front of any rest that begins with `<` (`piece_text`). So a
part of a document that begins and ends with markup is read the same way
wherever it stands (`Reads.append_right`), which is what allows it to be
taken over into another document.
-/

namespace TableMapper.Markup

/-- The event is markup: anything but character data. -/
def Event.isMarkup : Event → Bool
  | .text _ => false
  | _ => true

/-! ## Where markup ends -/

theorem upToClose_append_right {complete : List Char → Bool} {read cs content rest : List Char}
    (h : upToClose complete read cs = some (content, rest)) :
    ∃ front, cs = front ++ '>' :: rest ∧ content = read.reverse ++ front ∧
      ∀ behind, upToClose complete read (front ++ '>' :: behind) = some (content, behind) := by
  fun_induction upToClose complete read cs with
  | case1 => simp at h
  | case2 read c cs hc =>
    obtain ⟨rfl, hcomplete⟩ : c = '>' ∧ complete read = true := by simpa using hc
    obtain ⟨rfl, rfl⟩ : read.reverse = content ∧ cs = rest := by simpa using h
    refine ⟨[], rfl, by simp, fun behind => ?_⟩
    simp [upToClose, hcomplete]
  | case3 read c cs hc ih =>
    obtain ⟨front, rfl, rfl, hfront⟩ := ih h
    refine ⟨c :: front, rfl, by simp, fun behind => ?_⟩
    rw [List.cons_append, upToClose, if_neg hc]
    exact hfront behind

theorem upToTagEnd_append_right {quote : Option Char} {read cs content rest : List Char}
    (h : upToTagEnd quote read cs = some (content, rest)) :
    ∃ front, cs = front ++ '>' :: rest ∧ content = read.reverse ++ front ∧
      ∀ behind, upToTagEnd quote read (front ++ '>' :: behind) = some (content, behind) := by
  fun_induction upToTagEnd quote read cs with
  | case1 => simp at h
  | case2 read c cs q ih =>
    obtain ⟨front, rfl, rfl, hfront⟩ := ih h
    refine ⟨c :: front, rfl, by simp, fun behind => ?_⟩
    rw [List.cons_append, upToTagEnd]
    exact hfront behind
  | case3 read c cs hc =>
    obtain rfl : c = '>' := by simpa using hc
    obtain ⟨rfl, rfl⟩ : read.reverse = content ∧ cs = rest := by simpa using h
    exact ⟨[], rfl, by simp, fun behind => by simp [upToTagEnd]⟩
  | case4 read c cs hc ih =>
    obtain ⟨front, rfl, rfl, hfront⟩ := ih h
    refine ⟨c :: front, rfl, by simp, fun behind => ?_⟩
    rw [List.cons_append, upToTagEnd]
    simp only [hc]
    exact hfront behind

/-- What `Piece.between` reads is decided by the text in front of the closing
bracket. -/
theorem between_eq_read {event? : List Char → Option Event}
    {found : Option (List Char × List Char)} {event : Event} {text rest : List Char}
    (h : Piece.between event? found = .read event text rest) :
    ∃ content, found = some (content, rest) ∧ event? content = some event ∧
      text = '<' :: content ++ ['>'] := by
  cases found with
  | none => simp [Piece.between] at h
  | some pair =>
    obtain ⟨content, behind⟩ := pair
    simp only [Piece.between] at h
    split at h
    · simp at h
    next hevent =>
      obtain ⟨rfl, rfl, rfl⟩ : _ = event ∧ _ = text ∧ behind = rest := by simpa using h
      exact ⟨content, rfl, hevent, rfl⟩

/-! ## The kinds of markup -/

/-- Markup that begins with `!` and a second character other than `>` ends
at a bracket behind that character. -/
theorem between_upToClose_append_right {complete : List Char → Bool}
    {event? : List Char → Option Event} {c : Char} {cs text rest : List Char} {event : Event}
    (h : Piece.between event? (upToClose complete [] ('!' :: c :: cs)) = .read event text rest)
    (hc : c ≠ '>') (behind : List Char) :
    ∃ front, text = '<' :: '!' :: c :: front ++ ['>'] ∧
      Piece.between event? (upToClose complete [] ('!' :: c :: front ++ '>' :: behind))
        = .read event text behind := by
  obtain ⟨content, hfound, hevent, rfl⟩ := between_eq_read h
  obtain ⟨front, hcs, hcontent, hfront⟩ := upToClose_append_right hfound
  obtain rfl : content = front := hcontent
  cases content with
  | nil => exact absurd (List.cons.inj hcs).1 (by decide)
  | cons d content =>
    obtain ⟨rfl, htail⟩ := List.cons.inj hcs
    cases content with
    | nil => exact absurd (List.cons.inj htail).1 hc
    | cons e content =>
      obtain ⟨rfl, -⟩ := List.cons.inj htail
      refine ⟨content, rfl, ?_⟩
      rw [hfront behind]
      simp only [Piece.between, hevent]

theorem bang_append_right {cs text rest : List Char} {event : Event}
    (h : bang ('!' :: cs) = .read event text rest) (behind : List Char) :
    ∃ front, text = '<' :: '!' :: front ++ ['>'] ∧
      bang ('!' :: front ++ '>' :: behind) = .read event text behind := by
  unfold bang at h
  split at h
  next heq =>
    obtain ⟨rfl, rfl⟩ := List.cons.inj heq
    obtain ⟨front, rfl, hfront⟩ := between_upToClose_append_right h (by decide) behind
    exact ⟨_, rfl, hfront⟩
  next heq =>
    obtain ⟨rfl, rfl⟩ := List.cons.inj heq
    obtain ⟨front, rfl, hfront⟩ := between_upToClose_append_right h (by decide) behind
    exact ⟨_, rfl, hfront⟩
  next heq =>
    obtain ⟨rfl, rfl⟩ := List.cons.inj heq
    obtain ⟨front, rfl, hfront⟩ := between_upToClose_append_right h (by decide) behind
    exact ⟨_, rfl, hfront⟩
  next heq =>
    obtain ⟨rfl, rfl⟩ := List.cons.inj heq
    obtain ⟨front, rfl, hfront⟩ := between_upToClose_append_right h (by decide) behind
    exact ⟨_, rfl, hfront⟩
  · simp at h

theorem takeWhile_ne_append {d : Char} {front : List Char} (behind : List Char)
    (h : d ∉ front) : (front ++ d :: behind).takeWhile (· != d) = front := by
  rw [List.takeWhile_append_of_pos (by simpa using fun c hc (heq : c = d) => h (heq ▸ hc))]
  simp

theorem dropWhile_ne_append {d : Char} {front : List Char} (behind : List Char)
    (h : d ∉ front) : (front ++ d :: behind).dropWhile (· != d) = d :: behind := by
  rw [List.dropWhile_append_of_pos (by simpa using fun c hc (heq : c = d) => h (heq ▸ hc))]
  simp

theorem not_mem_takeWhile_ne (d : Char) (cs : List Char) : d ∉ cs.takeWhile (· != d) := by
  intro h
  simpa using List.mem_takeWhile_imp h

theorem eq_of_dropWhile_ne {d c : Char} {cs rest : List Char}
    (h : cs.dropWhile (· != d) = c :: rest) : c = d := by
  have hhead := List.head?_dropWhile_not (· != d) cs
  rw [h] at hhead
  simpa using hhead

/-- A text that ends with `>` does not consist of `<` and characters other
than `>`. -/
theorem getLast?_cons_takeWhile (cs : List Char) :
    ('<' :: cs.takeWhile (· != '>')).getLast? ≠ some '>' := by
  intro h
  rcases List.mem_cons.1 (List.mem_of_getLast? h) with heq | hmem
  · exact absurd heq (by decide)
  · exact not_mem_takeWhile_ne '>' cs hmem

theorem endTag_append_right {cs text rest : List Char} {event : Event}
    (h : endTag cs = .read event text rest) (hlast : text.getLast? = some '>')
    (behind : List Char) :
    ∃ front, text = '<' :: front ++ ['>'] ∧ cs = front ++ '>' :: rest ∧
      endTag (front ++ '>' :: behind) = .read event text behind := by
  have hcut := List.takeWhile_append_dropWhile (p := (· != '>')) (l := cs)
  have hfree := not_mem_takeWhile_ne '>' cs
  unfold endTag at h
  split at h
  · obtain ⟨-, rfl, -⟩ := Piece.read.inj h
    exact absurd hlast (getLast?_cons_takeWhile cs)
  next close back hdrop =>
    obtain rfl := eq_of_dropWhile_ne hdrop
    obtain ⟨rfl, rfl, rfl⟩ := Piece.read.inj h
    rw [hdrop] at hcut
    refine ⟨_, rfl, hcut.symm, ?_⟩
    rw [endTag, dropWhile_ne_append behind hfree, takeWhile_ne_append behind hfree]

theorem instruction_append_right {cs text rest : List Char} {event : Event}
    (h : instruction cs = .read event text rest) (hlast : text.getLast? = some '>')
    (behind : List Char) :
    ∃ front, text = '<' :: front ++ ['>'] ∧ cs = front ++ '>' :: rest ∧
      instruction (front ++ '>' :: behind) = .read event text behind := by
  have hcut := List.takeWhile_append_dropWhile (p := (· != '>')) (l := cs)
  have hfree := not_mem_takeWhile_ne '>' cs
  unfold instruction at h
  extract_lets content complete at h
  split at h
  · simp at h
  · obtain ⟨-, rfl, -⟩ := Piece.read.inj h
    exact absurd hlast (getLast?_cons_takeWhile cs)
  next close back hcomplete hdrop =>
    obtain rfl := eq_of_dropWhile_ne hdrop
    obtain ⟨rfl, rfl, rfl⟩ := Piece.read.inj h
    rw [hdrop] at hcut
    refine ⟨_, rfl, hcut.symm, ?_⟩
    rw [instruction, dropWhile_ne_append behind hfree, takeWhile_ne_append behind hfree]
    simp only [complete, content] at hcomplete
    rw [hcomplete]

/-- A `<` that no `!`, `/` or `?` follows begins a start tag. -/
theorem piece_tag {c : Char} (cs : List Char) (hbang : c ≠ '!') (hslash : c ≠ '/')
    (hquestion : c ≠ '?') :
    piece ('<' :: c :: cs)
      = Piece.between (fun content => some (tagEvent content)) (upToTagEnd none [] (c :: cs)) := by
  rw [piece]
  all_goals simp_all

/-! ## Every piece -/

/-- **Markup that ends with `>` is read in front of any rest.** -/
theorem piece_append_right {cs text rest : List Char} {event : Event}
    (h : piece cs = .read event text rest) (hmarkup : event.isMarkup = true)
    (hlast : text.getLast? = some '>') (behind : List Char) :
    piece (text ++ behind) = .read event text behind := by
  -- one case for each kind of piece, by what stands behind its `<`
  unfold piece at h
  split at h
  · simp at h
  · simp at h
  · obtain ⟨front, rfl, hfront⟩ := bang_append_right h behind
    simpa [piece] using hfront
  · obtain ⟨front, rfl, hcs, hfront⟩ := endTag_append_right h hlast behind
    cases front with
    | nil => exact absurd (List.cons.inj hcs).1 (by decide)
    | cons c front =>
      obtain ⟨rfl, -⟩ := List.cons.inj hcs
      simpa [piece] using hfront
  · obtain ⟨front, rfl, hcs, hfront⟩ := instruction_append_right h hlast behind
    cases front with
    | nil => exact absurd (List.cons.inj hcs).1 (by decide)
    | cons c front =>
      obtain ⟨rfl, -⟩ := List.cons.inj hcs
      simpa [piece] using hfront
  next tail hnil hbang hslash hquestion =>
    obtain ⟨content, hfound, hevent, rfl⟩ := between_eq_read h
    obtain ⟨front, hcs, hcontent, hfront⟩ := upToTagEnd_append_right hfound
    obtain rfl : content = front := hcontent
    have hbetween : Piece.between (fun content => some (tagEvent content))
        (upToTagEnd none [] (content ++ '>' :: behind))
          = .read event ('<' :: content ++ ['>']) behind := by
      rw [hfront behind, ← Option.some.inj hevent]
      rfl
    have hcut : '<' :: content ++ ['>'] ++ behind = '<' :: (content ++ '>' :: behind) := by simp
    rw [hcut]
    cases content with
    | nil => rwa [List.nil_append, piece_tag behind (by decide) (by decide) (by decide)]
    | cons c content =>
      rwa [List.cons_append,
        piece_tag _ (fun hc => hbang _ (hc ▸ hcs)) (fun hc => hslash _ (hc ▸ hcs))
        (fun hc => hquestion _ (hc ▸ hcs))]
  · obtain ⟨rfl, -, -⟩ := Piece.read.inj h
    exact absurd hmarkup (by simp [Event.isMarkup])

/-- **Character data is read up to the next `<`.** -/
theorem piece_text {content behind : List Char} (hne : content ≠ []) (hfree : '<' ∉ content)
    (hbehind : behind = [] ∨ ∃ rest, behind = '<' :: rest) :
    piece (content ++ behind) = .read (.text content) content behind := by
  have htake : (content ++ behind).takeWhile (· != '<') = content := by
    rcases hbehind with rfl | ⟨rest, rfl⟩
    · rw [List.append_nil, List.takeWhile_eq_self_iff]
      simpa using fun c hc (heq : c = '<') => hfree (heq ▸ hc)
    · exact takeWhile_ne_append rest hfree
  have hdrop : (content ++ behind).dropWhile (· != '<') = behind := by
    have hcut := List.takeWhile_append_dropWhile (p := (· != '<')) (l := content ++ behind)
    rw [htake] at hcut
    exact List.append_cancel_left hcut
  cases content with
  | nil => exact absurd rfl hne
  | cons c content =>
    have hc : c ≠ '<' := fun heq => hfree (heq ▸ List.mem_cons_self)
    rw [List.cons_append] at htake hdrop ⊢
    rw [piece]
    · simp only [htake, hdrop]
    all_goals simp_all

/-- The event of markup that begins with `!`. -/
theorem isMarkup_of_bang {cs text rest : List Char} {event : Event}
    (h : bang cs = .read event text rest) : event.isMarkup = true := by
  have other : ∀ {test : List Char → Prop} [DecidablePred test] {found : Event}
      {pair : Option (List Char × List Char)}, found.isMarkup = true →
      Piece.between (fun content => if test content then some found else none) pair
        = .read event text rest → event.isMarkup = true := by
    intro test _ found pair hfound hread
    obtain ⟨content, -, hevent, -⟩ := between_eq_read hread
    obtain ⟨-, heq⟩ := Option.ite_none_right_eq_some.1 hevent
    exact Option.some.inj heq ▸ hfound
  unfold bang at h
  split at h
  · exact other rfl h
  · exact other rfl h
  · exact other rfl h
  · exact other rfl h
  · simp at h

/-- **What a piece looks like**: character data holds no `<` and reaches up
to one; markup begins with `<` and, unless the document ends with it, ends
with `>`. -/
theorem piece_shape {cs text rest : List Char} {event : Event}
    (h : piece cs = .read event text rest) :
    (event = .text text ∧ '<' ∉ text ∧ (rest = [] ∨ ∃ back, rest = '<' :: back)) ∨
      (event.isMarkup = true ∧ text.head? = some '<' ∧
        (rest ≠ [] → text.getLast? = some '>')) := by
  have bracketed : ∀ {event? : List Char → Option Event} {found : Option (List Char × List Char)},
      Piece.between event? found = .read event text rest →
      text.head? = some '<' ∧ text.getLast? = some '>' := by
    intro event? found hread
    obtain ⟨content, -, -, rfl⟩ := between_eq_read hread
    exact ⟨rfl, List.getLast?_concat⟩
  -- only an end tag and an instruction may be cut off by the end of the document; all other markup
  -- is read up to its `>`
  unfold piece at h
  split at h
  · simp at h
  · simp at h
  · have hends : text.head? = some '<' ∧ text.getLast? = some '>' := by
      obtain ⟨front, rfl, -⟩ := bang_append_right h []
      exact ⟨rfl, List.getLast?_concat⟩
    exact .inr ⟨isMarkup_of_bang h, hends.1, fun _ => hends.2⟩
  · right
    unfold endTag at h
    split at h
    · obtain ⟨rfl, rfl, rfl⟩ := Piece.read.inj h
      exact ⟨rfl, rfl, fun hne => absurd rfl hne⟩
    next hdrop =>
      obtain rfl := eq_of_dropWhile_ne hdrop
      obtain ⟨rfl, rfl, rfl⟩ := Piece.read.inj h
      exact ⟨rfl, rfl, fun _ => List.getLast?_concat⟩
  · right
    unfold instruction at h
    extract_lets content complete at h
    split at h
    · simp at h
    · obtain ⟨rfl, rfl, rfl⟩ := Piece.read.inj h
      exact ⟨rfl, rfl, fun hne => absurd rfl hne⟩
    next hdrop =>
      obtain rfl := eq_of_dropWhile_ne hdrop
      obtain ⟨rfl, rfl, rfl⟩ := Piece.read.inj h
      exact ⟨rfl, rfl, fun _ => List.getLast?_concat⟩
  · obtain ⟨content, -, hevent, -⟩ := between_eq_read h
    obtain ⟨hhead, hlast⟩ := bracketed h
    refine .inr ⟨?_, hhead, fun _ => hlast⟩
    rw [← Option.some.inj hevent, tagEvent]
    split <;> rfl
  · obtain ⟨rfl, rfl, rfl⟩ := Piece.read.inj h
    refine .inl ⟨rfl, not_mem_takeWhile_ne '<' cs, ?_⟩
    cases hdrop : cs.dropWhile (· != '<') with
    | nil => exact .inl rfl
    | cons c back => exact .inr ⟨back, by rw [eq_of_dropWhile_ne hdrop]⟩

/-! ## A part of a document -/

/-- The text of several pieces. -/
def texts (fs : List Found) : List Char :=
  fs.flatMap (·.text)

@[simp] theorem texts_nil : texts [] = [] := rfl

@[simp] theorem texts_cons (f : Found) (fs : List Found) :
    texts (f :: fs) = f.text ++ texts fs := rfl

@[simp] theorem texts_append (fs gs : List Found) :
    texts (fs ++ gs) = texts fs ++ texts gs := by
  rw [texts, List.flatMap_append]
  rfl

/-- **The pieces of a part of a document**, from one place to another. The
byte positions noted with the pieces may be any. -/
inductive Reads : List Char → List Found → List Char → Prop
  | nil (cs : List Char) : Reads cs [] cs
  | cons {cs text rest behind : List Char} {event : Event} {fs : List Found} (start : Nat) :
      piece cs = .read event text rest → Reads rest fs behind →
      Reads cs (⟨event, start, text⟩ :: fs) behind

theorem Reads.append {cs rest behind : List Char} {fs gs : List Found}
    (hfs : Reads cs fs rest) (hgs : Reads rest gs behind) : Reads cs (fs ++ gs) behind := by
  induction hfs with
  | nil => exact hgs
  | cons start h _ ih => exact .cons start h (ih hgs)

theorem Reads.split {cs behind : List Char} {fs gs : List Found} (h : Reads cs (fs ++ gs) behind) :
    ∃ rest, Reads cs fs rest ∧ Reads rest gs behind := by
  induction fs generalizing cs with
  | nil => exact ⟨cs, .nil cs, h⟩
  | cons f fs ih =>
    cases h with
    | cons start hpiece htail =>
      obtain ⟨rest, hfs, hgs⟩ := ih htail
      exact ⟨rest, .cons start hpiece hfs, hgs⟩

/-- **Nothing is lost** in a part of a document. -/
theorem Reads.texts_append {cs rest : List Char} {fs : List Found} (h : Reads cs fs rest) :
    texts fs ++ rest = cs := by
  induction h with
  | nil => rfl
  | cons _ hpiece _ ih => rw [texts_cons, List.append_assoc, ih, (piece_append hpiece).1]

/-- The last piece, if any, is markup that ends with `>`. -/
def Sealed (fs : List Found) : Prop :=
  ∀ f, fs.getLast? = some f → f.event.isMarkup = true ∧ f.text.getLast? = some '>'

theorem sealed_nil : Sealed [] := by
  intro f h
  simp at h

theorem Sealed.tail {f : Found} {fs : List Found} (h : Sealed (f :: fs)) : Sealed fs := by
  intro g hg
  refine h g ?_
  rw [List.getLast?_cons, hg]
  rfl

/-- **A part that ends with closed markup is read in front of any rest.** -/
theorem Reads.append_right {cs rest : List Char} {fs : List Found} (h : Reads cs fs rest)
    (hsealed : Sealed fs) (behind : List Char) : Reads (texts fs ++ behind) fs behind := by
  induction h with
  | nil => exact .nil behind
  | @cons cs text rest back event fs start hpiece htail ih =>
    have hrest := ih hsealed.tail
    rw [texts_cons, List.append_assoc]
    refine .cons start ?_ hrest
    rcases piece_shape hpiece with ⟨rfl, hfree, hnext⟩ | ⟨hmarkup, -, hlast⟩
    · -- what follows character data is markup, in front of any rest too
      cases htail with
      | nil => exact absurd (hsealed _ rfl).1 (by simp [Event.isMarkup])
      | @cons _ text' rest' _ event' fs' _ hpiece' _ =>
        have hmarkup : text'.head? = some '<' := by
          rcases piece_shape hpiece' with ⟨-, hfree', -⟩ | ⟨-, hhead, -⟩
          · obtain ⟨hcut, hne⟩ := piece_append hpiece'
            rcases hnext with rfl | ⟨back, rfl⟩
            · exact absurd (List.append_eq_nil_iff.1 hcut).1 hne
            · cases text' with
              | nil => exact absurd rfl hne
              | cons c text' => exact absurd (by simp [(List.cons.inj hcut).1]) hfree'
          · exact hhead
        refine piece_text (piece_append hpiece).2 hfree (.inr ?_)
        cases text' with
        | nil => simp at hmarkup
        | cons c text' =>
          obtain rfl : c = '<' := by simpa using hmarkup
          exact ⟨_, rfl⟩
    · refine piece_append_right hpiece hmarkup ?_ _
      cases htail with
      | nil => exact (hsealed _ rfl).2
      | cons _ hpiece' _ =>
        refine hlast fun hnil => ?_
        obtain ⟨hcut, hne⟩ := piece_append hpiece'
        exact hne (List.append_eq_nil_iff.1 (hcut.trans hnil)).1

/-- Pieces in front of others are closed, if they end with markup. -/
theorem Reads.sealed {cs rest : List Char} {fs : List Found} (h : Reads cs fs rest)
    (hrest : rest ≠ []) (hlast : ∀ f, fs.getLast? = some f → f.event.isMarkup = true) :
    Sealed fs := by
  induction h with
  | nil => exact sealed_nil
  | @cons cs text rest back event fs start hpiece htail ih =>
    cases htail with
    | nil =>
      intro f hf
      obtain rfl : _ = f := Option.some.inj hf
      refine ⟨hlast _ rfl, ?_⟩
      rcases piece_shape hpiece with ⟨rfl, -, -⟩ | ⟨-, -, hend⟩
      · exact absurd (hlast _ rfl) (by simp [Event.isMarkup])
      · exact hend hrest
    | cons _ hpiece' htail' =>
      intro f hf
      rw [List.getLast?_cons_cons] at hf
      exact ih hrest (fun g hg => hlast g (by rwa [List.getLast?_cons_cons])) f hf

/-! ## The whole document -/

/-- What a piece is and its text, wherever it stands. -/
def Found.said (f : Found) : Event × List Char :=
  (f.event, f.text)

/-- The events of a text are its pieces up to where it ends or is
malformed. -/
theorem Reading.reads_ofText (start : Nat) (cs : List Char) :
    ∃ rest, Reads cs (Reading.ofText start cs).events rest ∧
      ((Reading.ofText start cs).malformed = none ↔ piece rest = .finished) := by
  fun_induction Reading.ofText start cs with
  | case1 start cs h => exact ⟨cs, .nil cs, by simp [h]⟩
  | case2 start cs h => exact ⟨cs, .nil cs, by simp [h]⟩
  | case3 start cs event text rest h behind ih =>
    obtain ⟨back, hreads, hend⟩ := ih
    exact ⟨back, .cons start h hreads, hend⟩

/-- **Pieces up to the end of a text are its events.** -/
theorem Reads.ofText {cs rest : List Char} {fs : List Found} (h : Reads cs fs rest)
    (hend : piece rest = .finished) (start : Nat) :
    (Reading.ofText start cs).events.map Found.said = fs.map Found.said ∧
      (Reading.ofText start cs).malformed = none := by
  induction h generalizing start with
  | nil cs =>
    rw [Reading.ofText]
    split <;> simp_all
  | @cons cs text rest back event fs _ hpiece _ ih =>
    rw [Reading.ofText]
    split
    · simp_all
    · simp_all
    next hread =>
      obtain ⟨rfl, rfl, rfl⟩ := Piece.read.inj (hpiece.symm.trans hread)
      obtain ⟨hevents, hmalformed⟩ := ih hend (start + byteSize text)
      exact ⟨by simp [hevents, Found.said], hmalformed⟩

end TableMapper.Markup
