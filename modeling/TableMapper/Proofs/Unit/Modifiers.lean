import TableMapper.Proofs.Text.Items
import TableMapper.Proofs.Unit.Imports
import TableMapper.Proofs.Unit.TypeFile

/-!
# The annotations of a type

Between the imports and the word that introduces a type stand its modifiers,
annotations among them (`Modifiers`). The arguments of an annotation can hold
other annotations, arrays and whatever else is closed in parentheses
(`IsMark`). The search for annotations knows nothing of that: arguments end for
it at the first closing parenthesis. So **the annotations are read in order, if
no parenthesis is closed inside of one** (`Modifiers.IsModifiers.marksFrom`),
and **an annotation that is read from a file is never another one**
(`isFlatMark_of_mem_marksFrom`).
-/

namespace TableMapper.Source

/-- A name, of which the parts can stand apart from the dots between them. -/
inductive IsQualified : List Char → Prop
  | part {part : List Char} : part ≠ [] → (∀ c ∈ part, isNamePart c = true) → IsQualified part
  | dot {part before behind rest : List Char} : IsQualified part →
      Text.Blank before → Text.Blank behind →
      IsQualified rest → IsQualified (part ++ (before ++ '.' :: (behind ++ rest)))

/-- **An annotation**: the sign, a name and possibly arguments, in which
parentheses are closed. -/
def IsMark (cs : List Char) : Prop :=
  ∃ gap name args, cs = '@' :: (gap ++ (name ++ args)) ∧ Text.Blank gap ∧ IsQualified name ∧
    (args = [] ∨ ∃ blanks inner, args = blanks ++ '(' :: (inner ++ [')']) ∧ Text.Blank blanks ∧
      Text.Balanced '(' ')' inner ∧ ';' ∉ inner)

/-- An annotation of a type, with the comments, modifiers and blanks behind
it. -/
structure MarkClause where
  text : String
  behind : String
deriving Repr, DecidableEq

/-- **The modifiers of a type**, annotations included. -/
structure Modifiers where
  /-- What stands in front of the first annotation. -/
  front : String := ""
  clauses : List MarkClause := []
deriving Repr, DecidableEq

/-- Code between annotations. -/
def IsUnmarked (text : String) : Prop :=
  Settled text.toList ∧ ∀ c ∈ codes (ofText text), c ≠ '@' ∧ c ≠ '(' ∧ c ≠ ';'

structure MarkClause.IsClause (c : MarkClause) : Prop where
  settled : Settled c.text.toList
  mark : IsMark (codes (ofText c.text))
  behind : IsUnmarked c.behind
  /-- Only a parenthesis separates the annotation from a word behind it. -/
  apart : (codes (ofText c.text)).getLast? = some ')' ∨ ∀ d ∈ (codes (ofText c.behind)).head?,
    isPathChar d = false

namespace Modifiers

def text (m : Modifiers) : String :=
  m.front ++ String.join (m.clauses.map fun c => c.text ++ c.behind)

/-- **The annotations**, as they are written. -/
def marks (m : Modifiers) : List String :=
  m.clauses.map (·.text)

structure IsModifiers (m : Modifiers) : Prop where
  front : IsUnmarked m.front
  clauses : ∀ c ∈ m.clauses, c.IsClause

end Modifiers

section

variable {cs name : List Char} {text : String} {mark rest tail front back : Source} {c : MarkClause}
  {clauses : List MarkClause} {m : Modifiers}

/-! ## The text of the modifiers -/

theorem IsQualified.not_mem (h : IsQualified name) {d : Char} (hpart : isNamePart d = false)
    (hblank : Text.isBlank d = false) (hdot : d ≠ '.') : d ∉ name := by
  induction h with
  | part _ hname =>
    intro hmem
    rw [hname d hmem] at hpart
    exact Bool.noConfusion hpart
  | @dot part before behind rest _ hbefore hbehind _ ihpart ihrest =>
    have hbefore : d ∉ before := hbefore.not_mem hblank
    have hbehind : d ∉ behind := hbehind.not_mem hblank
    simp [ihpart, ihrest, hbefore, hbehind, hdot]

theorem IsMark.semicolon (h : IsMark cs) : ';' ∉ cs := by
  obtain ⟨gap, name, args, rfl, hgap, hname, hargs⟩ := h
  have hgap : ';' ∉ gap := hgap.not_mem (by decide)
  have hname : ';' ∉ name := hname.not_mem (by decide) (by decide) (by decide)
  have hargs : ';' ∉ args := by
    obtain rfl | ⟨blanks, inner, rfl, hblanks, -, hinner⟩ := hargs
    · simp
    · have hblanks : ';' ∉ blanks := hblanks.not_mem (by decide)
      simp [hblanks, hinner]
  simp [hgap, hname, hargs]

theorem isMark_full {inner : List Char} (hne : name ≠ []) (hname : ∀ c ∈ name, isNamePart c = true)
    (hinner : Text.Balanced '(' ')' inner) (hsemicolon : ';' ∉ inner) :
    IsMark ('@' :: (name ++ '(' :: (inner ++ [')']))) :=
  ⟨[], name, '(' :: (inner ++ [')']), rfl, by simp [Text.Blank], .part hne hname,
    .inr ⟨[], inner, rfl, by simp [Text.Blank], hinner, hsemicolon⟩⟩

theorem isMark_bare (hne : name ≠ []) (hname : ∀ c ∈ name, isNamePart c = true) :
    IsMark ('@' :: name) :=
  ⟨[], name, [], by simp, by simp [Text.Blank], .part hne hname, .inl rfl⟩

/-- The annotations and what stands behind each, marked one by one. -/
def clausesSource (clauses : List MarkClause) : Source :=
  clauses.flatMap fun c => ofText c.text ++ ofText c.behind

theorem ofText_clauses (h : ∀ c ∈ clauses, c.IsClause) :
    ofText (String.join (clauses.map fun c => c.text ++ c.behind)) = clausesSource clauses := by
  induction clauses with
  | nil => rfl
  | cons c clauses ih =>
    have hc := h c List.mem_cons_self
    rw [List.map_cons, String.join_cons, String.append_assoc, TypeFile.ofText_append hc.settled,
      TypeFile.ofText_append hc.behind.1, ih fun other hother =>
      h other (List.mem_cons_of_mem c hother), clausesSource, clausesSource,
        List.flatMap_cons, List.append_assoc]

theorem Modifiers.IsModifiers.ofText_text (h : m.IsModifiers) :
    ofText m.text = ofText m.front ++ clausesSource m.clauses := by
  rw [Modifiers.text, TypeFile.ofText_append h.front.1, ofText_clauses h.clauses]

/-- Modifiers end no import. -/
theorem Modifiers.IsModifiers.semicolon (h : m.IsModifiers) :
    ∀ d ∈ ofText m.text, d.code ≠ ';' := by
  have hplain : ∀ {text}, IsUnmarked text → ∀ d ∈ ofText text, d.code ≠ ';' :=
    fun hunmarked d hd => (hunmarked.2 d.code (List.mem_map_of_mem hd)).2.2
  rw [h.ofText_text]
  intro d hd
  rcases List.mem_append.1 hd with hd | hd
  · exact hplain h.front d hd
  · obtain ⟨c, hc, hd⟩ := List.mem_flatMap.1 hd
    have hclause := h.clauses c hc
    rcases List.mem_append.1 hd with hd | hd
    · exact fun heq => hclause.mark.semicolon (heq ▸ List.mem_map_of_mem hd)
    · exact hplain hclause.behind d hd

/-! ## Reading the annotations -/

/-- No arguments begin behind code between annotations, if none do behind
what follows it. -/
theorem head?_skipBlanks_append {p : SourceChar → Prop} (hfront : ∀ d ∈ front, p d)
    (hrest : ∀ d ∈ (skipBlanks rest).head?, p d) :
    ∀ d ∈ (skipBlanks (front ++ rest)).head?, p d := by
  intro d hd
  rw [skipBlanks, List.dropWhile_append] at hd
  split at hd
  · exact hrest d hd
  next hne =>
    rw [List.head?_append_of_ne_nil _ fun hnil => hne (List.isEmpty_iff.2 hnil)] at hd
    exact hfront d ((List.dropWhile_suffix _).subset (List.mem_of_mem_head? hd))

theorem isPathChar_of_isMarkStart {d : Char} (h : isMarkStart d = true) : isPathChar d = true := by
  have hname : isNameStart d = true := by
    rw [isNameStart, ← isMarkStart, h, Bool.true_or]
  refine isPathChar_of_isNameChar (isNameChar_of_isNameStart hname) ?_
  rintro rfl
  exact absurd h (by decide)

/-- What follows the modifiers begins neither a word nor arguments, nor an
annotation. -/
structure EndsMarks (tail : Source) : Prop where
  word : ∀ d ∈ tail.head?, isPathChar d.code = false
  arguments : ∀ d ∈ (skipBlanks tail).head?, d.code ≠ '('
  none : marksFrom 0 tail = []

theorem EndsMarks.nil : EndsMarks [] where
  word := by simp
  arguments := by simp [skipBlanks]
  none := rfl

/-- The sign of an annotation type, with a gap behind it. -/
theorem EndsMarks.sign {sign : SourceChar} {gap : Source} (hsign : sign.code = '@')
    (hgap : Text.Blank (codes gap)) :
    EndsMarks (sign :: gap) where
  word := by
    rintro d ⟨⟩
    rw [hsign]
    decide
  arguments := by
    rw [skipBlanks, List.dropWhile_cons_of_neg (by rw [hsign]; decide)]
    rintro d ⟨⟩
    rw [hsign]
    decide
  none := by
    have hblank : ∀ d ∈ gap, Text.isBlank d.code = true :=
      fun d hd => hgap d.code (List.mem_map_of_mem hd)
    have hnone : markAt (sign :: gap) = Option.none := by
      cases gap with
      | nil => rfl
      | cons d gap =>
        have hstart : isMarkStart d.code = false := by
          refine Bool.eq_false_iff.2 fun hstart => ?_
          have hpath := isPathChar_of_isBlank (hblank d List.mem_cons_self)
          rw [isPathChar_of_isMarkStart hstart] at hpath
          exact Bool.noConfusion hpath
        rw [markAt, if_neg (by simp [hstart])]
    rw [marksFrom, hnone]
    show marksFrom 0 gap = []
    rw [← List.append_nil gap, marksFrom_append fun d hd heq => ?_]
    · rfl
    · have hd := hblank d hd
      rw [heq] at hd
      exact absurd hd (by decide)

/-- An annotation stands behind code, so nothing goes on in front of it. -/
theorem endsMarks_clauses (h : ∀ c ∈ clauses, c.IsClause) (htail : EndsMarks tail) :
    (∀ d ∈ (clausesSource clauses ++ tail).head?, isPathChar d.code = false) ∧
      ∀ d ∈ (skipBlanks (clausesSource clauses ++ tail)).head?, d.code ≠ '(' := by
  cases clauses with
  | nil => exact ⟨htail.word, htail.arguments⟩
  | cons c clauses =>
    obtain ⟨gap, name, args, hcodes, -⟩ := (h c List.mem_cons_self).mark
    obtain ⟨sign, behind, hsource, hsign, -⟩ := List.map_eq_cons_iff.1 hcodes
    have hskip : skipBlanks (clausesSource (c :: clauses) ++ tail)
        = clausesSource (c :: clauses) ++ tail := by
      rw [clausesSource, List.flatMap_cons, hsource]
      exact List.dropWhile_cons_of_neg (by rw [hsign]; decide)
    have hhead : ∀ d ∈ (clausesSource (c :: clauses) ++ tail).head?, d.code = '@' := by
      rw [clausesSource, List.flatMap_cons, hsource]
      rintro d ⟨⟩
      exact hsign
    rw [hskip]
    refine ⟨fun d hd => ?_, fun d hd => ?_⟩
    · rw [hhead d hd]
      decide
    · rw [hhead d hd]
      decide

theorem marksFrom_clauses (h : ∀ c ∈ clauses, c.IsClause)
    (hflat : ∀ c ∈ clauses, IsFlatMark (codes (ofText c.text)))
    (htail : EndsMarks tail) : marksFrom 0 (clausesSource clauses ++ tail)
      = clauses.map fun c => ofText c.text := by
  induction clauses with
  | nil => exact htail.none
  | cons c clauses ih =>
    obtain ⟨hc, hclauses⟩ := List.forall_mem_cons.1 h
    obtain ⟨hflat, hothers⟩ := List.forall_mem_cons.1 hflat
    have hplain : ∀ d ∈ ofText c.behind, d.code ≠ '@' ∧ d.code ≠ '(' := fun d hd =>
      ⟨(hc.behind.2 d.code (List.mem_map_of_mem hd)).1,
        (hc.behind.2 d.code (List.mem_map_of_mem hd)).2.1⟩
    obtain ⟨hword, harguments⟩ := endsMarks_clauses hclauses htail
    -- the annotation ends where it should
    have hmark : markAt (ofText c.text ++ (ofText c.behind ++ (clausesSource clauses ++ tail)))
        = some (ofText c.text) := by
      refine hflat.markAt (hc.apart.imp_right fun hapart =>
        ⟨?_, head?_skipBlanks_append (fun d hd => (hplain d hd).2) harguments⟩)
      cases hbehind : ofText c.behind with
      | nil => exact hword
      | cons e behind =>
        rintro d ⟨⟩
        exact hapart e.code (by rw [hbehind]; rfl)
    obtain ⟨sign, name, hsource⟩ : ∃ sign name, ofText c.text = sign :: name := by
      obtain ⟨gap, name, args, hcodes, -⟩ := hc.mark
      obtain ⟨sign, behind, hsource, -⟩ := List.map_eq_cons_iff.1 hcodes
      exact ⟨sign, behind, hsource⟩
    have hcut : clausesSource (c :: clauses) ++ tail
        = sign :: name ++ (ofText c.behind ++ (clausesSource clauses ++ tail)) := by
      rw [clausesSource, List.flatMap_cons, hsource]
      simp [clausesSource]
    rw [hsource] at hmark
    rw [hcut, marksFrom_cons_of_some hmark, marksFrom_append (fun d hd => (hplain d hd).1),
      ih hclauses hothers, List.map_cons, hsource]

/-- **The annotations are read in order**, if no parenthesis is closed inside
of one. -/
theorem Modifiers.IsModifiers.marksFrom (h : m.IsModifiers)
    (hflat : ∀ text ∈ m.marks, IsFlatMark (codes (ofText text)))
    (htail : EndsMarks tail) : marksFrom 0 (ofText m.text ++ tail) = m.marks.map ofText := by
  have hplain : ∀ d ∈ ofText m.front, d.code ≠ '@' :=
    fun d hd => (h.front.2 d.code (List.mem_map_of_mem hd)).1
  rw [h.ofText_text, List.append_assoc, marksFrom_append hplain,
    marksFrom_clauses h.clauses (fun c hc => hflat c.text (List.mem_map_of_mem hc)) htail,
    marks, List.map_map]
  rfl

/-! ## What is read is an annotation -/

theorem isPlain_of_isPathChar {d : Char} (h : isPathChar d = true) : isPlain d = true := by
  have hne : ∀ e : Char, isPathChar e = false → d ≠ e := fun e he heq => by
    rw [heq, he] at h
    exact Bool.noConfusion h
  simp [isPlain, hne '\n' (by decide), hne '"' (by decide), hne '\x27' (by decide),
    hne '/' (by decide), hne '*' (by decide), hne '\\' (by decide)]

/-- An annotation with flat arguments ends with code. -/
theorem IsFlatMark.exists_last (h : IsFlatMark cs) :
    ∃ inner last, cs = '@' :: (inner ++ [last]) ∧ isPlain last = true ∧ last ≠ ' ' := by
  obtain ⟨start, name, args, rfl, hstart, hname, rfl | ⟨blanks, inner, rfl, -⟩⟩ := h
  · have hletters : ∀ d ∈ start :: name, isPathChar d = true :=
      List.forall_mem_cons.2 ⟨isPathChar_of_isMarkStart hstart, hname⟩
    obtain ⟨inner, last, hcut⟩ :=
      (List.eq_nil_or_concat (start :: name)).resolve_left (List.cons_ne_nil _ _)
    have hlast : isPathChar last = true := hletters last (by rw [hcut]; simp)
    refine ⟨inner, last, by rw [List.append_nil, hcut, List.concat_eq_append],
      isPlain_of_isPathChar hlast, ?_⟩
    rintro rfl
    exact absurd hlast (by decide)
  · exact ⟨start :: (name ++ (blanks ++ '(' :: inner)), ')', by simp, by decide, by decide⟩

/-- **An annotation that is read from a file is marked by itself** as it is in
the file. -/
theorem ofText_mark (h : ofText text = front ++ (mark ++ back)) (hflat : IsFlatMark (codes mark)) :
    ofText mark.text = mark := by
  obtain ⟨inner, last, hcodes, hplain, hlast⟩ := hflat.exists_last
  obtain ⟨sign, behind, rfl, hsign, hbehind⟩ := List.map_eq_cons_iff.1 hcodes
  obtain ⟨inner, ends, rfl, -, hends⟩ := List.map_eq_append_iff.1 hbehind
  obtain ⟨ending, rfl, hending⟩ : ∃ d, ends = [d] ∧ d.code = last := by
    simpa [List.map_eq_singleton_iff] using hends
  obtain rfl := eq_shown_of_code hsign (by decide)
  obtain rfl := eq_shown_of_code hending hlast
  rw [List.cons_append, List.append_assoc] at h
  have hrest : markFrom .code (chars (inner ++ ([shown last] ++ back)))
      = inner ++ shown last :: back :=
    markFrom_behind h (by decide)
  have hown := (settled_of_shown hrest hplain).2
  rw [ofText, Source.text, String.toList_ofList]
  show markFrom .code ('@' :: chars (inner ++ [shown last])) = _
  rw [markFrom_inert_cons (by decide), chars_append]
  exact congrArg (shown '@' :: ·) hown

end

end TableMapper.Source
