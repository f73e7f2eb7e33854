import TableMapper.Markup.Render
import TableMapper.Proofs.Markup.Nesting
import TableMapper.Proofs.Markup.RootContent

/-!
# Reading back an element that has been written

A written element is read as one item, wherever it stands
(`Node.WellNamed.exists_element`). Character data that stands next to each
other is one piece when it is read, although it may have been written by
several nodes, so the induction over a tree does not speak of the pieces
of a node. It speaks of texts that lead from character data to character
data (`Passes`), which can be put one behind the other.
-/

namespace TableMapper.Markup

/-!
## Reading back a tag that has been written

Writing a tag and reading it are inverse to each other: **a written tag is
one piece, wherever it stands** (`piece_written`), and **its attributes are
read back as they were given** (`attribute?_written`). Values may be any
texts, because a value holds neither quotes nor brackets once it is escaped
(`escaped_plain`). Names must be names: texts without the characters by
which markup is cut (`IsName`).
-/

/-- A character by which markup is cut: no name holds one. -/
def delimits (c : Char) : Bool :=
  isTagBlank c || ['<', '>', '/', '=', '!', '?', '"', '\x27'].contains c

/-- The name of an element or an attribute. -/
def IsName (name : String) : Prop :=
  name.toList ≠ [] ∧ ∀ c ∈ name.toList, delimits c = false

/-- An attribute in front of which a blank stands, as characters. -/
def attributeText (a : String × String) : List Char :=
  ' ' :: a.1.toList ++ '=' :: '"' :: a.2.toList.flatMap escapeAttributeChar ++ ['"']

/-- The tag that is read from a written one: its attributes, and the text
behind them. -/
def writtenTag (name : String) (attributes : List (String × String)) (behind : List Char) : Tag :=
  ⟨name.toList, attributes.flatMap attributeText ++ behind⟩

theorem toList_renderAttribute (a : String × String) :
    (renderAttribute a).toList = attributeText a := by
  simp [renderAttribute, escapeAttribute, attributeText]

theorem toList_renderTag (name : String) (attributes : List (String × String)) :
    (renderTag name attributes).toList
      = '<' :: name.toList ++ attributes.flatMap attributeText := by
  simp [renderTag, List.flatMap_map, toList_renderAttribute]

/-! ### Escaped characters -/

/-- What a character of character data is escaped to is read as the
character. -/
theorem decodeFrom_escapeText (c : Char) (rest : List Char) :
    decodeFrom none (escapeTextChar c ++ rest) = (decodeFrom none rest).map (c :: ·) := by
  unfold escapeTextChar
  split
  · simp [decodeFrom, reference?]
  · simp [decodeFrom, reference?]
  · simp [decodeFrom, reference?]
  next hamp _ _ =>
    simp only [List.cons_append, List.nil_append, decodeFrom, beq_iff_eq]
    rw [if_neg hamp]

/-- What a character of a value is escaped to is read as the character. -/
theorem decodeFrom_escape (c : Char) (rest : List Char) :
    decodeFrom none (escapeAttributeChar c ++ rest) = (decodeFrom none rest).map (c :: ·) := by
  unfold escapeAttributeChar
  split
  · simp [decodeFrom, reference?]
  · exact decodeFrom_escapeText _ rest

/-- Decoding undoes any escaping that it undoes character by character. -/
theorem decode?_flatMap {escape : Char → List Char}
    (h : ∀ c rest, decodeFrom none (escape c ++ rest) = (decodeFrom none rest).map (c :: ·))
    (cs : List Char) :
    decode? (cs.flatMap escape) = some cs := by
  induction cs with
  | nil => rfl
  | cons c cs ih =>
    rw [decode?, List.flatMap_cons, h]
    rw [decode?] at ih
    rw [ih]
    rfl

/-- **Decoding undoes escaping.** -/
theorem decode?_escape (cs : List Char) : decode? (cs.flatMap escapeAttributeChar) = some cs :=
  decode?_flatMap decodeFrom_escape cs

/-- An escaped character holds neither brackets nor double quotes. -/
theorem escapeAttributeChar_plain (c : Char) :
    ∀ d ∈ escapeAttributeChar c, d ≠ '"' ∧ d ≠ '<' ∧ d ≠ '>' := by
  unfold escapeAttributeChar
  split
  · decide
  next hquote =>
    unfold escapeTextChar
    split
    · decide
    · decide
    · decide
    next _ hless hgreater =>
      intro d hd
      rw [List.mem_singleton.1 hd]
      exact ⟨hquote, hless, hgreater⟩

/-- **An escaped value holds neither brackets nor double quotes.** -/
theorem escaped_plain {value : List Char} :
    ∀ d ∈ value.flatMap escapeAttributeChar, d ≠ '"' ∧ d ≠ '<' ∧ d ≠ '>' := by
  intro d hd
  obtain ⟨c, -, hc⟩ := List.mem_flatMap.1 hd
  exact escapeAttributeChar_plain c d hc

/-- Escaped character data holds no bracket. -/
theorem not_mem_escapeText (cs : List Char) : '<' ∉ cs.flatMap escapeTextChar := by
  intro h
  obtain ⟨c, -, hc⟩ := List.mem_flatMap.1 h
  unfold escapeTextChar at hc
  split at hc
  · simp at hc
  · simp at hc
  · simp at hc
  next hless _ => exact hless (List.mem_singleton.1 hc).symm

/-! ### Where a tag ends -/

theorem upToTagEnd_outside {read front : List Char}
    (h : ∀ c ∈ front, c ≠ '>' ∧ c ≠ '"' ∧ c ≠ '\x27') (rest : List Char) :
    upToTagEnd none read (front ++ rest) = upToTagEnd none (front.reverse ++ read) rest := by
  induction front generalizing read with
  | nil => rfl
  | cons c front ih =>
    obtain ⟨hclose, hdouble, hsingle⟩ := h c List.mem_cons_self
    rw [List.cons_append, upToTagEnd]
    simp only [beq_eq_false_iff_ne.2 hclose, beq_eq_false_iff_ne.2 hdouble,
      beq_eq_false_iff_ne.2 hsingle, Bool.or_self, Bool.false_eq_true, if_false]
    rw [ih fun d hd => h d (List.mem_cons_of_mem _ hd), List.reverse_cons, List.append_assoc]
    rfl

theorem upToTagEnd_quoted {read front : List Char} (h : '"' ∉ front) (rest : List Char) :
    upToTagEnd (some '"') read (front ++ '"' :: rest)
      = upToTagEnd none ('"' :: front.reverse ++ read) rest := by
  induction front generalizing read with
  | nil => simp [upToTagEnd]
  | cons c front ih =>
    have hc : c ≠ '"' := fun heq => h (heq ▸ List.mem_cons_self)
    rw [List.cons_append, upToTagEnd]
    simp only [beq_eq_false_iff_ne.2 hc, Bool.false_eq_true, if_false]
    rw [ih fun hmem => h (List.mem_cons_of_mem _ hmem)]
    simp

/-- A tag does not end at a character of a name. -/
theorem IsName.plain {name : String} (h : IsName name) :
    ∀ c ∈ name.toList, c ≠ '>' ∧ c ≠ '"' ∧ c ≠ '\x27' := by
  intro c hc
  refine ⟨?_, ?_, ?_⟩
  all_goals
    rintro rfl
    exact absurd (h.2 _ hc) (by decide)

/-- A tag does not end in an attribute. -/
theorem upToTagEnd_attribute {a : String × String} (h : IsName a.1) (read rest : List Char) :
    upToTagEnd none read (attributeText a ++ rest)
      = upToTagEnd none ((attributeText a).reverse ++ read) rest := by
  have hfront : ∀ c ∈ ' ' :: a.1.toList ++ ['='], c ≠ '>' ∧ c ≠ '"' ∧ c ≠ '\x27' := by
    intro c hc
    rcases List.mem_append.1 hc with hc | hc
    · rcases List.mem_cons.1 hc with rfl | hc
      · decide
      · exact h.plain c hc
    · rw [List.mem_singleton.1 hc]
      decide
  have hvalue : '"' ∉ a.2.toList.flatMap escapeAttributeChar := fun hmem =>
    (escaped_plain _ hmem).1 rfl
  have hcut : attributeText a ++ rest
      = (' ' :: a.1.toList ++ ['=']) ++
        '"' :: (a.2.toList.flatMap escapeAttributeChar ++ '"' :: rest) := by
    simp [attributeText]
  rw [hcut, upToTagEnd_outside hfront, upToTagEnd]
  simp only [show ('"' == '>') = false from rfl, Bool.false_eq_true, if_false, beq_self_eq_true,
    Bool.true_or, if_true]
  rw [upToTagEnd_quoted hvalue]
  simp [attributeText]

theorem upToTagEnd_attributes {attributes : List (String × String)}
    (h : ∀ a ∈ attributes, IsName a.1) (read rest : List Char) :
    upToTagEnd none read (attributes.flatMap attributeText ++ rest)
      = upToTagEnd none ((attributes.flatMap attributeText).reverse ++ read) rest := by
  induction attributes generalizing read with
  | nil => rfl
  | cons a attributes ih =>
    rw [List.flatMap_cons, List.append_assoc, upToTagEnd_attribute (h a List.mem_cons_self),
      ih fun b hb => h b (List.mem_cons_of_mem _ hb)]
    simp

/-! ### Reading the attributes -/

/-- The name of an attribute ends at its `=`. -/
theorem IsName.inName {name : String} (h : IsName name) :
    ∀ c ∈ name.toList, (c != '=' && !isTagBlank c) = true := by
  intro c hc
  have hdelimits := h.2 c hc
  rw [delimits, Bool.or_eq_false_iff] at hdelimits
  have hequals : c ≠ '=' := by
    rintro rfl
    exact absurd hdelimits.2 (by decide)
  simp [hdelimits.1, hequals]

theorem firstAttribute_attributeText {a : String × String} (h : IsName a.1) (rest : List Char) :
    firstAttribute (attributeText a ++ rest)
      = .ok (some (a.1.toList, a.2.toList.flatMap escapeAttributeChar, rest)) := by
  have hvalue : '"' ∉ a.2.toList.flatMap escapeAttributeChar := fun hmem =>
    (escaped_plain _ hmem).1 rfl
  have hquoted : quotedValue ('"' :: (a.2.toList.flatMap escapeAttributeChar ++ '"' :: rest))
      = .ok (a.2.toList.flatMap escapeAttributeChar, rest) := by
    have hblank : isTagBlank '"' = false := by decide
    rw [quotedValue, List.dropWhile_cons_of_neg (by simp [hblank])]
    simp only [beq_self_eq_true, Bool.true_or, if_true]
    rw [dropWhile_ne_append rest hvalue, takeWhile_ne_append rest hvalue]
  have hin := h.inName
  have hname := h.1
  unfold firstAttribute attributeText
  cases hlist : a.1.toList with
  | nil => exact absurd hlist hname
  | cons c name =>
    rw [hlist] at hin
    have hc : isTagBlank c = false := by
      simpa using (Bool.and_eq_true_iff.1 (hin c List.mem_cons_self)).2
    have htail := fun d hd => hin d (List.mem_cons_of_mem c hd)
    simp only [List.cons_append, List.append_assoc, List.nil_append]
    rw [List.dropWhile_cons_of_pos (by decide), List.dropWhile_cons_of_neg (by simp [hc])]
    simp only
    rw [List.dropWhile_append_of_pos htail, List.takeWhile_append_of_pos htail,
      List.dropWhile_cons_of_neg (by decide), List.takeWhile_cons_of_neg (by decide), behindEquals,
      List.dropWhile_cons_of_neg (by decide)]
    simp only [hquoted, List.append_nil]

/-- **Attributes are read back as they were written**, up to the first one
with a name. -/
theorem attributeIn_written {attributes : List (String × String)}
    (h : ∀ a ∈ attributes, IsName a.1) {behind : List Char}
    (hbehind : ∀ c ∈ behind, isTagBlank c = true)
    (name : String) :
    attributeIn name.toList (attributes.flatMap attributeText ++ behind)
      = .ok ((attributes.lookup name).map String.toList) := by
  induction attributes with
  | nil =>
    have hnone : firstAttribute behind = .ok none := by
      rw [firstAttribute, List.dropWhile_eq_nil_iff.2 hbehind]
    rw [List.flatMap_nil, List.nil_append, attributeIn]
    split <;> simp_all
  | cons a attributes ih =>
    have hfirst := firstAttribute_attributeText (h a List.mem_cons_self)
      (attributes.flatMap attributeText ++ behind)
    rw [List.flatMap_cons, List.append_assoc, attributeIn]
    split
    · simp_all
    · simp_all
    next found value rear hread =>
      obtain ⟨rfl, rfl, rfl⟩ : _ = found ∧ _ = value ∧ _ = rear := by
        simpa using hfirst.symm.trans hread
      by_cases hname : name = a.1
      · subst hname
        rw [if_pos (beq_self_eq_true _), decode?_escape, List.lookup_cons_self]
        rfl
      · have hne : a.1.toList ≠ name.toList := fun heq => hname (String.toList_inj.1 heq).symm
        rw [if_neg (by simpa using hne), ih fun b hb => h b (List.mem_cons_of_mem _ hb),
          List.lookup_cons, beq_eq_false_iff_ne.2 hname]

/-- **The attributes of a written tag are those it was written with.** -/
theorem attribute?_written {attributes : List (String × String)}
    (h : ∀ a ∈ attributes, IsName a.1) {behind : List Char}
    (hbehind : ∀ c ∈ behind, isTagBlank c = true)
    (element name : String) :
    (writtenTag element attributes behind).attribute? name = .ok (attributes.lookup name) := by
  rw [Tag.attribute?, writtenTag, attributeIn_written h hbehind]
  cases attributes.lookup name <;> simp [Except.map]

/-! ### Written tags as pieces -/

/-- The attributes of a written tag begin with a blank. -/
theorem ofContent_written {name : String} (h : IsName name) (attributes : List (String × String))
    (behind : List Char) (hbehind : behind = [] ∨ behind = [' ']) :
    Tag.ofContent (name.toList ++ attributes.flatMap attributeText ++ behind)
      = writtenTag name attributes behind := by
  have hin : ∀ c ∈ name.toList, (!isTagBlank c) = true := fun c hc =>
    (Bool.and_eq_true_iff.1 (h.inName c hc)).2
  have hrest : (attributes.flatMap attributeText ++ behind).takeWhile (!isTagBlank ·) = [] := by
    cases attributes with
    | nil => rcases hbehind with rfl | rfl <;> rfl
    | cons a attributes => rfl
  have hcut := List.takeWhile_append_dropWhile (p := (!isTagBlank ·))
    (l := attributes.flatMap attributeText ++ behind)
  rw [hrest, List.nil_append] at hcut
  rw [Tag.ofContent, writtenTag, List.append_assoc, List.takeWhile_append_of_pos hin,
    List.dropWhile_append_of_pos hin, hrest, hcut, List.append_nil]

/-- What stands between the brackets of a written tag. -/
theorem piece_written {name : String} {attributes : List (String × String)} (h : IsName name)
    (hattributes : ∀ a ∈ attributes, IsName a.1) (front rest : List Char)
    (hfront : ∀ c ∈ front, c ≠ '>' ∧ c ≠ '"' ∧ c ≠ '\x27') :
    piece ('<' :: (name.toList ++ attributes.flatMap attributeText ++ front ++ '>' :: rest))
      = .read (tagEvent (name.toList ++ attributes.flatMap attributeText ++ front))
          ('<' :: (name.toList ++ attributes.flatMap attributeText ++ front) ++ ['>']) rest := by
  have hend : upToTagEnd none []
        (name.toList ++ (attributes.flatMap attributeText ++ (front ++ '>' :: rest)))
      = some (name.toList ++ attributes.flatMap attributeText ++ front, rest) := by
    rw [upToTagEnd_outside h.plain, upToTagEnd_attributes hattributes, upToTagEnd_outside hfront,
      upToTagEnd]
    simp
  obtain ⟨hne, hname⟩ := h
  rw [List.append_assoc, List.append_assoc]
  cases hlist : name.toList with
  | nil => exact absurd hlist hne
  | cons c cs =>
    rw [hlist] at hend hname
    have hc := hname c List.mem_cons_self
    have htag :
        piece ('<' :: (c :: cs ++ (attributes.flatMap attributeText ++ (front ++ '>' :: rest))))
        = Piece.between (fun content => some (tagEvent content)) (upToTagEnd none []
            (c :: cs ++ (attributes.flatMap attributeText ++ (front ++ '>' :: rest)))) := by
      refine piece_tag _ ?_ ?_ ?_
      all_goals
        rintro rfl
        exact absurd hc (by decide)
    rw [htag, hend]
    rfl

/-- A start tag ends with a name or a quote. -/
theorem getLast?_written {name : String} (h : IsName name) (attributes : List (String × String)) :
    (name.toList ++ attributes.flatMap attributeText).getLast? ≠ some '/' := by
  intro hslash
  cases hreverse : attributes.reverse with
  | nil =>
    rw [List.reverse_eq_nil_iff.1 hreverse, List.flatMap_nil, List.append_nil] at hslash
    exact absurd (h.2 _ (List.mem_of_getLast? hslash)) (by decide)
  | cons a before =>
    have hcut : attributes = before.reverse ++ [a] := by
      rw [← List.reverse_reverse attributes, hreverse, List.reverse_cons]
    rw [hcut, List.flatMap_append, List.flatMap_singleton, attributeText,
      ← List.append_assoc, ← List.append_assoc, List.getLast?_concat] at hslash
    exact absurd hslash (by decide)

/-- **A written start tag is a piece.** -/
theorem piece_opening {name : String} {attributes : List (String × String)} (h : IsName name)
    (hattributes : ∀ a ∈ attributes, IsName a.1) (rest : List Char) :
    piece ((renderTag name attributes).toList ++ '>' :: rest)
      = .read (.opening (writtenTag name attributes []))
          ((renderTag name attributes).toList ++ ['>']) rest := by
  have hevent : tagEvent (name.toList ++ attributes.flatMap attributeText)
      = .opening (writtenTag name attributes []) := by
    have htag := ofContent_written h attributes [] (.inl rfl)
    rw [List.append_nil] at htag
    rw [tagEvent, if_neg (by simpa using getLast?_written h attributes), htag]
  have hpiece := piece_written h hattributes [] rest (by simp)
  rw [List.append_nil, hevent] at hpiece
  rw [toList_renderTag]
  exact hpiece

/-- **A written tag without content is a piece.** -/
theorem piece_empty {name : String} {attributes : List (String × String)} (h : IsName name)
    (hattributes : ∀ a ∈ attributes, IsName a.1) (rest : List Char) :
    piece ((renderTag name attributes).toList ++ ' ' :: '/' :: '>' :: rest)
      = .read (.empty (writtenTag name attributes [' ']))
          ((renderTag name attributes).toList ++ [' ', '/', '>']) rest := by
  have hevent : tagEvent (name.toList ++ attributes.flatMap attributeText ++ [' ', '/'])
      = .empty (writtenTag name attributes [' ']) := by
    rw [show [' ', '/'] = [' '] ++ ['/'] from rfl, ← List.append_assoc, tagEvent,
      List.getLast?_concat, List.dropLast_concat, ofContent_written h attributes [' '] (.inr rfl)]
    rfl
  have hpiece := piece_written h hattributes [' ', '/'] rest (by decide)
  rw [hevent] at hpiece
  rw [toList_renderTag]
  simpa using hpiece

/-- **A written end tag is a piece.** -/
theorem piece_closing {name : String} (h : IsName name) (rest : List Char) :
    piece ('<' :: '/' :: (name.toList ++ '>' :: rest))
      = .read (.closing name.toList) ('<' :: '/' :: (name.toList ++ ['>'])) rest := by
  have hfree : '>' ∉ '/' :: name.toList := by
    intro hmem
    rcases List.mem_cons.1 hmem with heq | hmem
    · exact absurd heq (by decide)
    · exact (h.plain _ hmem).1 rfl
  have hblank : ∀ c ∈ name.toList, isTagBlank c = false := fun c hc => by
    simpa using (Bool.and_eq_true_iff.1 (h.inName c hc)).2
  have htrim : (name.toList.reverse.dropWhile isTagBlank).reverse = name.toList := by
    cases hreverse : name.toList.reverse with
    | nil => rw [List.dropWhile_nil, ← hreverse, List.reverse_reverse]
    | cons c cs =>
      have hc : c ∈ name.toList := by
        rw [← List.mem_reverse, hreverse]
        exact List.mem_cons_self
      rw [List.dropWhile_cons_of_neg (by simp [hblank c hc]), ← hreverse, List.reverse_reverse]
  rw [piece, ← List.cons_append, endTag, takeWhile_ne_append rest hfree,
    dropWhile_ne_append rest hfree]
  simp [htrim]

/-! ## From character data to character data -/

/-- **The text leads from character data to character data**: with any
character data in front, it is read as nested pieces, up to character
data. -/
def Passes (cs : List Char) : Prop :=
  ∀ lead behind, '<' ∉ lead → ∃ fs back,
    '<' ∉ back ∧ Nested fs ∧ Reads (lead ++ cs ++ behind) fs (back ++ behind)

/-- Character data up to markup is at most one piece. -/
theorem reads_data {lead : List Char} (h : '<' ∉ lead) (rest : List Char) :
    ∃ fs, Nested fs ∧ Reads (lead ++ '<' :: rest) fs ('<' :: rest) := by
  by_cases hne : lead = []
  · rw [hne]
    exact ⟨[], nested_nil, .nil _⟩
  · exact ⟨[⟨.text lead, 0, lead⟩], rfl, .cons 0 (piece_text hne h (.inr ⟨rest, rfl⟩)) (.nil _)⟩

theorem Passes.of_data {cs : List Char} (h : '<' ∉ cs) : Passes cs := by
  intro lead behind hlead
  refine ⟨[], lead ++ cs, ?_, nested_nil, .nil _⟩
  rw [List.mem_append]
  exact not_or.2 ⟨hlead, h⟩

theorem Passes.append {cs ds : List Char} (hcs : Passes cs) (hds : Passes ds) :
    Passes (cs ++ ds) := by
  intro lead behind hlead
  obtain ⟨fs, mid, hmid, hfs, hreads⟩ := hcs lead (ds ++ behind) hlead
  obtain ⟨gs, back, hback, hgs, hreads'⟩ := hds mid behind hmid
  refine ⟨fs ++ gs, back, hback, hfs.append hgs, ?_⟩
  rw [← List.append_assoc] at hreads
  rw [List.append_assoc mid] at hreads'
  rw [← List.append_assoc lead]
  exact hreads.append hreads'

/-- Nested pieces that begin and end with markup lead from character data to
character data. -/
theorem Passes.of_reads {cs : List Char} {fs : List Found} (h : Reads ('<' :: cs) fs [])
    (hsealed : Sealed fs) (hfs : Nested fs) : Passes ('<' :: cs) := by
  intro lead behind hlead
  obtain ⟨gs, hgs, hdata⟩ := reads_data hlead (cs ++ behind)
  have hfront := h.append_right hsealed behind
  rw [← List.append_nil (texts fs), h.texts_append] at hfront
  refine ⟨gs ++ fs, [], List.not_mem_nil, hgs.append hfs, ?_⟩
  rw [List.append_assoc]
  exact hdata.append hfront

/-- A text that leads to character data is nested up to markup. -/
theorem Passes.exists_nested {cs : List Char} (h : Passes cs) (rest : List Char) :
    ∃ fs, Nested fs ∧ Reads (cs ++ '<' :: rest) fs ('<' :: rest) := by
  obtain ⟨fs, back, hback, hfs, hreads⟩ := h [] ('<' :: rest) List.not_mem_nil
  obtain ⟨gs, hgs, hdata⟩ := reads_data hback rest
  exact ⟨fs ++ gs, hfs.append hgs, hreads.append hdata⟩

/-! ## Elements -/

/-- The text is that of an element with a tag, in front of any rest. -/
def IsElementText (tag : Tag) (cs : List Char) : Prop :=
  ∃ fs, Reads cs fs [] ∧ Sealed fs ∧ Content fs [.element tag cs]

/-- A node without raw markup, all names in which are names. -/
inductive Node.WellNamed : Node → Prop
  | element {name : String} {attributes : List (String × String)} {children : List Node} :
      IsName name → (∀ a ∈ attributes, IsName a.1) → (∀ n ∈ children, n.WellNamed) →
      WellNamed (.element name attributes children)
  | text (s : String) : WellNamed (.text s)

/-- The pieces of the content of a root are nested. -/
theorem Content.nested {fs : List Found} {items : List Item} (h : Content fs items) :
    Nested fs := by
  have single : ∀ {f : Found} {gs : List Found}, f.event.openAfter [] = some [] → Nested gs →
      Nested (f :: gs) := by
    intro f gs hf hgs
    rw [Nested, openAfter_cons, hf]
    exact hgs
  induction h with
  | nil => exact nested_nil
  | comment hevent _ ih => exact single (by rw [hevent]; rfl) ih
  | data hevent _ ih => exact single (by rw [hevent]; rfl) ih
  | other hevent _ ih => exact single (by rw [hevent]; rfl) ih
  | empty hevent _ ih => exact single (by rw [hevent]; rfl) ih
  | element hstart hinner hstop _ ih => exact (Nested.element hstart hinner hstop).append ih

theorem IsElementText.passes {tag : Tag} {cs : List Char} (h : IsElementText tag ('<' :: cs)) :
    Passes ('<' :: cs) := by
  obtain ⟨fs, hreads, hsealed, hcontent⟩ := h
  exact .of_reads hreads hsealed hcontent.nested

theorem sealed_concat (fs : List Found) {f : Found} (hmarkup : f.event.isMarkup = true)
    (hlast : f.text.getLast? = some '>') : Sealed (fs ++ [f]) := by
  intro g hg
  rw [List.getLast?_concat] at hg
  obtain rfl := Option.some.inj hg
  exact ⟨hmarkup, hlast⟩

theorem isElementText_empty {name : String} {attributes : List (String × String)} (h : IsName name)
    (hattributes : ∀ a ∈ attributes, IsName a.1) :
    IsElementText (writtenTag name attributes [' '])
      ((renderTag name attributes).toList ++ [' ', '/', '>']) := by
  have hlast : ((renderTag name attributes).toList ++ ([' ', '/'] ++ ['>'])).getLast?
      = some '>' := by
    rw [← List.append_assoc, List.getLast?_concat]
  exact ⟨_, .cons 0 (piece_empty h hattributes []) (.nil _),
    sealed_concat [] rfl hlast, .empty rfl .nil⟩

theorem isElementText_element {name : String} {attributes : List (String × String)}
    {content : List Char} (h : IsName name) (hattributes : ∀ a ∈ attributes, IsName a.1)
    (hcontent : Passes content) :
    IsElementText (writtenTag name attributes [])
      ((renderTag name attributes).toList ++
        '>' :: (content ++ '<' :: '/' :: (name.toList ++ ['>']))) := by
  obtain ⟨inner, hinner, hreads⟩ := hcontent.exists_nested ('/' :: (name.toList ++ ['>']))
  have hall := Reads.cons 0 (piece_opening h hattributes _)
    (hreads.append (.cons 0 (piece_closing h []) (.nil [])))
  have hlast : ('<' :: '/' :: name.toList ++ ['>']).getLast? = some '>' := List.getLast?_concat
  refine ⟨_, hall, sealed_concat (_ :: inner) rfl hlast, ?_⟩
  have htexts := hall.texts_append
  rw [List.append_nil] at htexts
  rw [← htexts]
  exact .single rfl hinner rfl

/-! ## Written nodes -/

theorem toList_indent (depth : Nat) : (indent depth).toList = List.replicate (2 * depth) ' ' :=
  String.toList_ofList

theorem passes_indent (depth : Nat) : Passes (indent depth).toList := by
  refine .of_data fun hmem => ?_
  rw [toList_indent] at hmem
  exact absurd (List.eq_of_mem_replicate hmem) (by decide)

theorem passes_renderChildren {children : List Node} {depth : Nat}
    (h : ∀ n ∈ children, Passes (n.render depth).toList) :
    Passes (renderChildren depth children).toList := by
  induction children with
  | nil => exact .of_data (by simp [renderChildren])
  | cons n children ih =>
    rw [renderChildren, String.toList_append, String.toList_append]
    exact (Passes.append (.of_data (by decide)) (h n List.mem_cons_self)).append
      (ih fun m hm => h m (List.mem_cons_of_mem _ hm))

/-- **An element is read as an element**, if its children lead from
character data to character data. -/
theorem exists_element {name : String} {attributes : List (String × String)} {children : List Node}
    (h : IsName name) (hattributes : ∀ a ∈ attributes, IsName a.1) (depth : Nat)
    (hchildren : ∀ n ∈ children, Passes (n.render (depth + 1)).toList) :
    ∃ behind cs, (∀ c ∈ behind, isTagBlank c = true) ∧
      IsElementText (writtenTag name attributes behind) ('<' :: cs) ∧
      ((Node.element name attributes children).render depth).toList
        = (indent depth).toList ++ '<' :: cs := by
  have htag := toList_renderTag name attributes
  cases children with
  | nil =>
    have hempty := isElementText_empty h hattributes
    rw [htag, List.cons_append, List.cons_append] at hempty
    refine ⟨[' '], _, by decide, hempty, ?_⟩
    simp [Node.render, htag]
  | cons first rest =>
    have hcontent : Passes ((renderChildren (depth + 1) (first :: rest)).toList ++ "\n".toList ++
        (indent depth).toList) :=
      ((passes_renderChildren hchildren).append (.of_data (by decide))).append (passes_indent depth)
    have helement := isElementText_element h hattributes hcontent
    rw [htag, List.cons_append, List.cons_append] at helement
    refine ⟨[], _, by simp, helement, ?_⟩
    simp [Node.render, htag]

/-- **A written node leads from character data to character data.** -/
theorem Node.WellNamed.passes {n : Node} (h : n.WellNamed) (depth : Nat) :
    Passes (n.render depth).toList := by
  induction h generalizing depth with
  | element hname hattributes _ ih =>
    obtain ⟨behind, cs, -, helement, hrender⟩ :=
      exists_element hname hattributes depth fun n hn => ih n hn (depth + 1)
    rw [hrender]
    exact (passes_indent depth).append helement.passes
  | text s =>
    rw [Node.render, String.toList_append]
    refine (passes_indent depth).append (.of_data ?_)
    rw [escapeText, String.toList_ofList]
    exact not_mem_escapeText s.toList

end TableMapper.Markup
