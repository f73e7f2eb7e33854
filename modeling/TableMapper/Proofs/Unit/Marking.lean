import TableMapper.Proofs.Text.Trimming
import TableMapper.Unit.Source

/-!
# Marking a source file part by part

Whether a character is code depends on everything in front of it, so a part
of a file is in general not marked as it would be by itself. It is when it
is **settled** (`Settled`): when it ends in the code, and not in the middle
of something of which the first characters alone mean something else. What
ends with a brace, a parenthesis or a semicolon that is code is settled
(`settled_of_shown`), and what settled parts consist of is settled
(`Settled.append`). So the members of a type can be marked one by one.
-/

namespace TableMapper.Source

/-- A character that begins and ends neither comments nor literals, and
escapes nothing. -/
def isPlain (c : Char) : Bool :=
  !(['\n', '"', '\x27', '/', '*', '\\'].contains c)

/-- A character that begins neither a comment nor a literal. -/
def isInert (c : Char) : Bool :=
  !(['"', '\x27', '/'].contains c)

/-- **A text that is marked the same way in front of any other**, and leaves
the marking of the other as it is. -/
def Settled (cs : List Char) : Prop :=
  ∀ behind, markFrom .code (cs ++ behind) = markFrom .code cs ++ markFrom .code behind

/-! ## Characters in their place -/

@[simp] theorem chars_markFrom (surrounding : Surrounding) (cs : List Char) :
    chars (markFrom surrounding cs) = cs :=
  map_char_markFrom surrounding cs

@[simp] theorem chars_nil : chars [] = [] := rfl

@[simp] theorem chars_cons (c : SourceChar) (source : Source) :
    chars (c :: source) = c.char :: chars source := rfl

@[simp] theorem chars_append (source more : Source) :
    chars (source ++ more) = chars source ++ chars more :=
  List.map_append

@[simp] theorem length_chars (source : Source) : (chars source).length = source.length :=
  List.length_map _

@[simp] theorem codes_nil : codes [] = [] := rfl

@[simp] theorem codes_cons (c : SourceChar) (source : Source) :
    codes (c :: source) = c.code :: codes source := rfl

@[simp] theorem codes_append (source more : Source) :
    codes (source ++ more) = codes source ++ codes more :=
  List.map_append

@[simp] theorem chars_map_shown (cs : List Char) : chars (cs.map shown) = cs := by
  rw [chars, List.map_map]
  exact List.map_id cs

@[simp] theorem blanked_map_shown (cs : List Char) : blanked (cs.map shown) = cs := by
  rw [blanked, List.flatMap_map]
  exact List.flatMap_singleton' cs

@[simp] theorem codes_map_shown (cs : List Char) : codes (cs.map shown) = cs := by
  rw [codes, List.map_map]
  exact List.map_id cs

/-- A character that is not a blank is shown where it counts. -/
theorem eq_shown_of_code {c : SourceChar} {d : Char} (h : c.code = d) (hd : d ≠ ' ') :
    c = shown d := by
  cases c with
  | mk char hidden =>
    cases hidden with
    | true => exact absurd h.symm hd
    | false => exact congrArg shown h

theorem map_text_ofText (texts : List String) : (texts.map ofText).map (·.text) = texts := by
  rw [List.map_map, show Source.text ∘ ofText = id from funext text_ofText, List.map_id]

section

variable {front rest behind : List Char} {c d : Char} {pre post out : Source}

/-- A character that is not `d` hides what stands behind it from a look for
`d`. -/
theorem ne_cons_of_ne (hne : c ≠ d) (h : ∀ r, front ++ c :: rest = d :: r → False) :
    ∀ r, front ++ c :: behind = d :: r → False := by
  intro r hr
  cases front with
  | nil => exact hne (List.cons.inj hr).1
  | cons e front =>
    obtain ⟨rfl, -⟩ := List.cons.inj hr
    exact h _ rfl

theorem ne_cons_cons_of_ne (hne : c ≠ d) (h : ∀ r, front ++ c :: rest = d :: d :: r → False) :
    ∀ r, front ++ c :: behind = d :: d :: r → False := by
  intro r hr
  match front with
  | [] => exact hne (List.cons.inj hr).1
  | [e] => exact hne (List.cons.inj (List.cons.inj hr).2).1
  | e :: f :: front =>
    obtain ⟨rfl, hr⟩ := List.cons.inj hr
    obtain ⟨rfl, -⟩ := List.cons.inj hr
    exact h _ rfl

theorem exists_of_append_eq {α : Type} {first more front back : List α}
    (h : first ++ more = front ++ back) (hle : first.length ≤ front.length) :
    ∃ between, front = first ++ between ∧ more = between ++ back := by
  have hbegins : first <+: front ++ back := h ▸ List.prefix_append _ _
  obtain ⟨between, rfl⟩ := List.prefix_of_prefix_length_le hbegins (List.prefix_append _ _) hle
  rw [List.append_assoc] at h
  exact ⟨between, rfl, List.append_cancel_left h⟩

/-- A character that is shown stands behind a token in front of it. -/
theorem exists_behind {cs : List Char} (marks : Source) (token : List Char)
    (h : marks ++ out = pre ++ shown c :: post) (hcs : token ++ cs = front ++ c :: rest)
    (hlen : pre.length = front.length) (hmarks : marks.length = token.length)
    (hle : marks.length ≤ pre.length) :
    ∃ front' pre', front = token ++ front' ∧ pre = marks ++ pre' ∧
      out = pre' ++ shown c :: post ∧ cs = front' ++ c :: rest ∧ pre'.length = front'.length := by
  obtain ⟨pre', rfl, hout⟩ := exists_of_append_eq h hle
  obtain ⟨front', rfl, hrest⟩ := exists_of_append_eq hcs (by omega)
  refine ⟨front', pre', rfl, rfl, hout, hrest, ?_⟩
  rw [List.length_append, List.length_append] at hlen
  omega

/-- A character that is shown is not in what is marked otherwise. -/
theorem length_le_of_ne {marks : Source} (h : marks ++ out = pre ++ shown c :: post)
    (hne : ∀ m ∈ marks, m ≠ shown c) : marks.length ≤ pre.length := by
  refine Nat.le_of_not_lt fun hlt => ?_
  obtain ⟨between, rfl, hbetween⟩ := exists_of_append_eq h.symm (by omega)
  cases between with
  | nil => simp at hlt
  | cons m between =>
    obtain ⟨rfl, -⟩ := List.cons.inj hbetween
    exact hne _ (List.mem_append_right _ List.mem_cons_self) rfl

/-- What a plain character is not. -/
theorem ne_of_isPlain (h : isPlain c = true) :
    c ≠ '\n' ∧ c ≠ '"' ∧ c ≠ '\x27' ∧ c ≠ '/' ∧ c ≠ '*' ∧ c ≠ '\\' := by
  have hne : ∀ d ∈ ['\n', '"', '\x27', '/', '*', '\\'], c ≠ d := by
    rintro d hd rfl
    simp [isPlain, hd] at h
  simpa using hne

theorem isInert_of_isPlain (h : isPlain c = true) : isInert c = true := by
  obtain ⟨-, hdouble, hsingle, hslash, -⟩ := ne_of_isPlain h
  simp [isInert, hdouble, hsingle, hslash]

/-- What begins neither a comment nor a literal is code. -/
theorem markFrom_inert_cons (h : isInert c = true) (behind : List Char) :
    markFrom .code (c :: behind) = shown c :: markFrom .code behind := by
  obtain ⟨hdouble, hsingle, hslash⟩ : c ≠ '"' ∧ c ≠ '\x27' ∧ c ≠ '/' := by simpa [isInert] using h
  have hcode : (c == '"' || c == '\x27') = false := by simp [hdouble, hsingle]
  rw [markFrom, hcode]
  · rfl
  · exact fun r hd => absurd hd hslash
  · exact fun r hd => absurd hd hslash
  · exact fun r hd => absurd hd hdouble

theorem markFrom_plain (h : isPlain c = true) (behind : List Char) :
    markFrom .code (c :: behind) = shown c :: markFrom .code behind :=
  markFrom_inert_cons (isInert_of_isPlain h) behind

/-- Nothing in front of a plain character is a backslash that escapes
nothing. -/
theorem ne_backslash {cs : List Char} (h : isPlain c = true)
    (hescape : ∀ e r, d = '\\' → cs = e :: r → False) (hcs : d :: cs = front ++ c :: rest) :
    d ≠ '\\' := by
  cases front with
  | nil =>
    obtain ⟨rfl, -⟩ := List.cons.inj hcs
    exact (ne_of_isPlain h).2.2.2.2.2
  | cons e front =>
    obtain ⟨-, rfl⟩ := List.cons.inj hcs
    intro hd
    cases front with
    | nil => exact hescape _ _ hd rfl
    | cons f front => exact hescape _ _ hd rfl

/-- **A token in front of a plain character of the code**: what stands behind
the token is marked in the surroundings that the token leads to. -/
theorem markFrom_token {surrounding next : Surrounding} {cs : List Char} (marks : Source)
    (token : List Char) (h : marks ++ out = pre ++ shown c :: post)
    (hcs : token ++ cs = front ++ c :: rest) (hlen : pre.length = front.length)
    (hmarks : marks.length = token.length) (hle : marks.length ≤ pre.length)
    (hstep : ∀ front', cs = front' ++ c :: rest →
      markFrom surrounding (token ++ (front' ++ c :: behind))
        = marks ++ markFrom next (front' ++ c :: behind))
    (ih : ∀ {pre front}, out = pre ++ shown c :: post → cs = front ++ c :: rest →
      pre.length = front.length →
      markFrom next (front ++ c :: behind) = pre ++ shown c :: markFrom .code behind) :
    markFrom surrounding (front ++ c :: behind) = pre ++ shown c :: markFrom .code behind := by
  obtain ⟨front, pre, rfl, rfl, hout, hrest, hlen⟩ :=
    exists_behind marks token h hcs hlen hmarks hle
  rw [List.append_assoc, hstep front hrest, ih hout hrest hlen, List.append_assoc]

/-- **What follows a plain character of the code** is marked by itself. -/
theorem markFrom_shown {surrounding : Surrounding} {cs : List Char}
    (h : markFrom surrounding cs = pre ++ shown c :: post) (hcs : cs = front ++ c :: rest)
    (hlen : pre.length = front.length) (hc : isPlain c = true) (behind : List Char) :
    markFrom surrounding (front ++ c :: behind) = pre ++ shown c :: markFrom .code behind := by
  obtain ⟨hline, hdouble, -, hslash, hstar, -⟩ := ne_of_isPlain hc
  have concealed_ne : ∀ d, concealed d ≠ shown c := by simp [concealed, shown]
  have inside_ne : ∀ d, inside d ≠ shown c := by
    intro d hd
    obtain ⟨rfl, hhidden⟩ : d = c ∧ (d != '\n') = false := by simpa [inside, shown] using hd
    exact hline (by simpa using hhidden)
  have shown_ne : shown '"' ≠ shown c := by simpa [shown] using hdouble.symm
  -- `c` is plain, so a step that reads several characters at once reads them all in front of it;
  -- only a step that shows one character can be the one that reads `c`
  fun_induction markFrom surrounding cs generalizing front pre with
  | case1 => simp at hcs
  | case2 cs ih =>
    exact markFrom_token [concealed '/', concealed '/'] ['/', '/'] h hcs hlen rfl
      (length_le_of_ne h (by simp [concealed_ne])) (fun _ _ => rfl) ih
  | case3 cs ih =>
    exact markFrom_token [concealed '/', concealed '*'] ['/', '*'] h hcs hlen rfl
      (length_le_of_ne h (by simp [concealed_ne])) (fun _ _ => rfl) ih
  | case4 cs ih =>
    exact markFrom_token [shown '"', shown '"', shown '"'] ['"', '"', '"'] h hcs hlen rfl
      (length_le_of_ne h (by simp [shown_ne])) (fun _ _ => rfl) ih
  | case5 d cs hslashes hstars hquotes ih =>
    cases pre with
    | nil =>
      obtain rfl : front = [] := List.length_eq_zero_iff.1 hlen.symm
      exact markFrom_plain hc behind
    | cons m pre =>
      refine markFrom_token [shown d] [d] h hcs hlen rfl (by simp) (fun front' hrest => ?_) ih
      subst hrest
      show markFrom .code (d :: (front' ++ c :: behind))
          = shown d :: markFrom _ (front' ++ c :: behind)
      rw [markFrom]
      · exact fun r hd => ne_cons_of_ne hslash (fun r => hslashes r hd) r
      · exact fun r hd => ne_cons_of_ne hstar (fun r => hstars r hd) r
      · exact fun r hd => ne_cons_cons_of_ne hdouble (fun r => hquotes r hd) r
  | case6 d cs ih =>
    refine markFrom_token [inside d] [d] h hcs hlen rfl (length_le_of_ne h (by simp [inside_ne]))
      (fun front' _ => ?_) ih
    show markFrom .lineComment (d :: (front' ++ c :: behind))
        = inside d :: markFrom _ (front' ++ c :: behind)
    rw [markFrom]
  | case7 cs ih =>
    exact markFrom_token [concealed '*', concealed '/'] ['*', '/'] h hcs hlen rfl
      (length_le_of_ne h (by simp [concealed_ne])) (fun _ _ => rfl) ih
  | case8 d cs hstars ih =>
    refine markFrom_token [inside d] [d] h hcs hlen rfl (length_le_of_ne h (by simp [inside_ne]))
      (fun front' hrest => ?_) ih
    subst hrest
    show markFrom .blockComment (d :: (front' ++ c :: behind))
        = inside d :: markFrom _ (front' ++ c :: behind)
    rw [markFrom]
    exact fun r hd => ne_cons_of_ne hslash (fun r => hstars r hd) r
  | case9 quote d cs ih =>
    exact markFrom_token [concealed '\\', concealed d] ['\\', d] h hcs hlen rfl
      (length_le_of_ne h (by simp [concealed_ne])) (fun _ _ => rfl) ih
  | case10 quote d cs hescape hquote ih =>
    have hd : d ≠ '\\' := ne_backslash hc hescape hcs
    cases pre with
    | nil =>
      obtain rfl : front = [] := List.length_eq_zero_iff.1 hlen.symm
      obtain ⟨rfl, -⟩ := List.cons.inj hcs
      show markFrom (.literal quote) (d :: behind) = shown d :: _
      rw [markFrom, if_pos hquote]
      exact fun _ _ heq => absurd heq hd
    | cons m pre =>
      refine markFrom_token [shown d] [d] h hcs hlen rfl (by simp) (fun front' _ => ?_) ih
      show markFrom (.literal quote) (d :: (front' ++ c :: behind))
          = shown d :: markFrom _ (front' ++ c :: behind)
      rw [markFrom, if_pos hquote]
      exact fun _ _ heq => absurd heq hd
  | case11 quote d cs hescape hquote ih =>
    have hd : d ≠ '\\' := ne_backslash hc hescape hcs
    refine markFrom_token [inside d] [d] h hcs hlen rfl (length_le_of_ne h (by simp [inside_ne]))
      (fun front' _ => ?_) ih
    show markFrom (.literal quote) (d :: (front' ++ c :: behind))
        = inside d :: markFrom _ (front' ++ c :: behind)
    rw [markFrom, if_neg hquote]
    exact fun _ _ heq => absurd heq hd
  | case12 cs ih =>
    exact markFrom_token [shown '"', shown '"', shown '"'] ['"', '"', '"'] h hcs hlen rfl
      (length_le_of_ne h (by simp [shown_ne])) (fun _ _ => rfl) ih
  | case13 d cs ih =>
    exact markFrom_token [concealed '\\', concealed d] ['\\', d] h hcs hlen rfl
      (length_le_of_ne h (by simp [concealed_ne])) (fun _ _ => rfl) ih
  | case14 d cs hquotes hescape ih =>
    have hd : d ≠ '\\' := ne_backslash hc hescape hcs
    refine markFrom_token [inside d] [d] h hcs hlen rfl (length_le_of_ne h (by simp [inside_ne]))
      (fun front' hrest => ?_) ih
    subst hrest
    show markFrom .textBlock (d :: (front' ++ c :: behind))
        = inside d :: markFrom _ (front' ++ c :: behind)
    rw [markFrom]
    · exact fun r hd => ne_cons_cons_of_ne hdouble (fun r => hquotes r hd) r
    · exact fun _ _ heq => absurd heq hd

end

/-! ## Settled texts -/

theorem settled_nil : Settled [] := fun _ => rfl

/-- **What settled parts consist of is settled.** -/
theorem Settled.append {cs ds : List Char} (hcs : Settled cs) (hds : Settled ds) :
    Settled (cs ++ ds) := by
  intro behind
  rw [List.append_assoc, hcs, hds, hcs, List.append_assoc]

/-- A text that begins no comments and no literals. -/
theorem markFrom_inert {cs : List Char} (h : ∀ c ∈ cs, isInert c = true) (behind : List Char) :
    markFrom .code (cs ++ behind) = cs.map shown ++ markFrom .code behind := by
  induction cs with
  | nil => rfl
  | cons c cs ih =>
    rw [List.cons_append, markFrom_inert_cons (h c List.mem_cons_self),
      ih fun d hd => h d (List.mem_cons_of_mem c hd)]
    rfl

theorem markFrom_of_inert {cs : List Char} (h : ∀ c ∈ cs, isInert c = true) :
    markFrom .code cs = cs.map shown := by
  simpa [markFrom] using markFrom_inert h []

theorem settled_of_inert {cs : List Char} (h : ∀ c ∈ cs, isInert c = true) : Settled cs :=
  fun behind => by rw [markFrom_inert h, markFrom_of_inert h]

/-- **A part that ends with a plain character of the code is settled**, and
marked as it is in the whole. -/
theorem settled_of_shown {cs : List Char} {pre post : Source} {c : Char}
    (h : markFrom .code cs = pre ++ shown c :: post) (hc : isPlain c = true) :
    Settled (chars pre ++ [c]) ∧ markFrom .code (chars pre ++ [c]) = pre ++ [shown c] := by
  have hcs : cs = chars pre ++ c :: chars post := by
    have hchars := congrArg chars h
    rwa [chars_markFrom, chars_append, chars_cons] at hchars
  have hfront := markFrom_shown h hcs (length_chars pre).symm hc
  have hown : markFrom .code (chars pre ++ [c]) = pre ++ [shown c] := hfront []
  refine ⟨fun behind => ?_, hown⟩
  rw [hown, List.append_assoc, List.append_assoc]
  exact hfront behind

/-- A part that ends with a plain character of the code, by the marking of the
part alone. -/
theorem settled_of_getLast? {cs : List Char} {c : Char}
    (h : (markFrom .code cs).getLast? = some (shown c))
    (hc : isPlain c = true) : Settled cs := by
  obtain ⟨pre, hpre⟩ := List.getLast?_eq_some_iff.1 h
  have hchars := congrArg chars hpre
  rw [chars_markFrom, chars_append] at hchars
  rw [hchars]
  exact (settled_of_shown hpre hc).1

/-- **What follows a plain character of the code is marked by itself** as it is
in the whole. -/
theorem markFrom_behind {cs : List Char} {pre post : Source} {c : Char}
    (h : markFrom .code cs = pre ++ shown c :: post) (hc : isPlain c = true) :
    markFrom .code (chars post) = post := by
  obtain ⟨hsettled, hown⟩ := settled_of_shown h hc
  have hcs : cs = (chars pre ++ [c]) ++ chars post := by
    have hchars := congrArg chars h
    rw [chars_markFrom, chars_append, chars_cons] at hchars
    rw [hchars, List.append_assoc]
    rfl
  have hall := hsettled (chars post)
  rw [← hcs, hown, h, List.append_assoc] at hall
  exact (List.cons.inj (List.append_cancel_left hall)).2.symm

end TableMapper.Source
