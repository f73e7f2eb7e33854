import Mathlib.Data.List.Nodup
import TableMapper.Proofs.Markup.WrittenDocument

/-!
# A written document says what it was written from

Parsing a written document gives back its tree (`parse?_render`): the same
elements in the same nesting and order, with the same attributes, and the
character data of its nodes in its place. Only white space is added, in front
of nodes and behind the last one of an element. **No value and no text can
change this**, whatever characters it holds.

Character data of a node is not a piece of its own: what is written next to it
is read with it. The induction over the tree therefore speaks of texts that
are read behind character data and leave character data behind (`Yields`).
-/

namespace TableMapper.Markup

/-!
## The tree that the events of a document make up

The outline of a document keeps the children of its root as they stand, and of
their tags no more than it needs. Here **the events are put together to the
whole tree** (`parse?`): elements with all their attributes, in the nesting
that the tags have, and character data with its references decoded. A reader
that checks a document fails where a tag does not fit, where an attribute is
malformed or repeated, and where a reference denotes no character; so does
this one.

Character data is taken apart into characters: where one text node ends and
the next one begins cannot be seen in a document.
-/

/-- **A part of what a document says.** -/
inductive Part
  /-- A character of character data. -/
  | char (c : Char)
  | element (name : String) (attributes : List (String × String)) (content : List Part)
  /-- A comment, a declaration, a processing instruction, a data section or a
  document type. -/
  | other

/-! ### Attributes -/

/-- The attributes in the text behind a tag's name, with their values
decoded. -/
def attributesIn (cs : List Char) : Option (List (String × String)) :=
  match _h : firstAttribute cs with
  | .error _ => none
  | .ok none => some []
  | .ok (some (name, value, behind)) => do
    let value ← decode? value
    let rest ← attributesIn behind
    return (String.ofList name, String.ofList value) :: rest
termination_by cs.length
decreasing_by exact firstAttribute_length _h

/-- **All attributes of a tag.** No name may be repeated. -/
def Tag.attributes? (tag : Tag) : Option (List (String × String)) :=
  (attributesIn tag.rest).filter fun attributes => (attributes.map Prod.fst).Nodup

/-! ### Parsing -/

/-- An element that has been opened, and what stands in front of it. -/
structure OpenElement where
  name : List Char
  attributes : List (String × String)
  before : List Part

/-- **How far a document has been parsed**: the elements that are open, the
innermost first, and what the innermost holds so far. -/
structure Parsing where
  opened : List OpenElement := []
  content : List Part := []

namespace Parsing

/-- One more part. -/
def add (p : Parsing) (parts : List Part) : Parsing :=
  { p with content := p.content ++ parts }

/-- **One more event.** -/
def step (p : Parsing) : Event → Option Parsing
  | .opening tag => tag.attributes?.map fun attributes =>
    ⟨⟨tag.name, attributes, p.content⟩ :: p.opened, []⟩
  | .empty tag => tag.attributes?.map fun attributes =>
    p.add [.element (String.ofList tag.name) attributes []]
  | .closing name =>
    match p.opened with
    | [] => none
    | e :: outer =>
      -- the innermost element goes behind what stood in front of it
      if e.name = name then some
        ⟨outer, e.before ++ [.element (String.ofList name) e.attributes p.content]⟩
      else none
  | .text content => (decode? content).map fun cs => p.add (cs.map .char)
  | .comment | .other => some (p.add [.other])

/-- Several events. -/
def run (p : Parsing) (events : List Event) : Option Parsing :=
  events.foldlM step p

theorem run_cons (p : Parsing) (event : Event) (events : List Event) :
    p.run (event :: events) = (p.step event).bind (·.run events) :=
  rfl

theorem run_append (p : Parsing) (events more : List Event) :
    p.run (events ++ more) = (p.run events).bind (·.run more) :=
  List.foldlM_append

end Parsing

/-- **The parts of a document**, if all of it is well formed and every element
is closed. -/
def parse? (s : String) : Option (List Part) :=
  let reading := Reading.ofDocument s
  if reading.malformed.isSome then none
  else
    match Parsing.run {} (reading.events.map (·.event)) with
    | some ⟨[], content⟩ => some content
    | _ => none

/-! ### Pieces that add parts -/

/-- **Pieces that stand for parts**: wherever they stand, they add these. -/
def Parses (fs : List Found) (parts : List Part) : Prop :=
  ∀ p : Parsing, p.run (fs.map (·.event)) = some (p.add parts)

section

variable {fs gs : List Found} {parts more : List Part} {f : Found}

theorem parses_nil : Parses [] [] := by
  intro p
  show some p = some { p with content := p.content ++ [] }
  rw [List.append_nil]

theorem Parses.append (hfs : Parses fs parts) (hgs : Parses gs more) :
    Parses (fs ++ gs) (parts ++ more) := by
  intro p
  rw [List.map_append, Parsing.run_append, hfs p, Option.bind_some, hgs]
  show some { p with content := p.content ++ parts ++ more } = _
  rw [List.append_assoc]
  rfl

/-- A piece that adds parts. -/
theorem Parses.single (h : ∀ p : Parsing, p.step f.event = some (p.add parts)) :
    Parses [f] parts := by
  intro p
  rw [List.map_cons, Parsing.run_cons, h]
  rfl

/-- Character data. -/
theorem parses_text {content cs : List Char} (hevent : f.event = .text content)
    (hdecode : decode? content = some cs) :
    Parses [f] (cs.map .char) :=
  .single fun p => by
    rw [hevent, Parsing.step, hdecode]
    rfl

variable {tag : Tag} {name : String} {attributes : List (String × String)}

theorem parses_empty (hevent : f.event = .empty tag) (hname : tag.name = name.toList)
    (hattributes : tag.attributes? = some attributes) : Parses [f] [.element name attributes []] :=
  .single fun p => by
    rw [hevent, Parsing.step, hattributes, hname, String.ofList_toList]
    rfl

/-- **An element with content.** -/
theorem parses_element {start stop : Found} {inner : List Found} {content : List Part}
    (hstart : start.event = .opening tag) (hname : tag.name = name.toList)
    (hattributes : tag.attributes? = some attributes) (hinner : Parses inner content)
    (hstop : stop.event = .closing name.toList) :
    Parses (start :: inner ++ [stop]) [.element name attributes content] := by
  intro p
  rw [List.map_append, List.map_cons, List.cons_append, Parsing.run_cons, hstart, Parsing.step,
    hattributes, Option.map_some, Option.bind_some, Parsing.run_append, hinner, Option.bind_some,
    List.map_cons, Parsing.run_cons, hstop, hname]
  show (if name.toList = name.toList then _ else none).bind _ = _
  rw [if_pos rfl, String.ofList_toList]
  rfl

end

/-- **A text whose pieces stand for parts is parsed as these.** -/
theorem parse?_of_reads {s : String} {fs : List Found} {parts : List Part}
    (hmark : s.toList.head? ≠ some '\uFEFF')
    (h : Reads s.toList fs []) (hparses : Parses fs parts) : parse? s = some parts := by
  obtain ⟨hevents, hmalformed⟩ := h.ofText rfl 0
  have hsame : (Reading.ofText 0 s.toList).events.map (·.event) = fs.map (·.event) := by
    have h := congrArg (List.map Prod.fst) hevents
    rwa [List.map_map, List.map_map] at h
  rw [parse?, Reading.ofDocument_of_ne hmark]
  simp only [hmalformed, hsame, hparses {}]
  rfl

/-! ## Trees and their parts -/

/-- **A node that can be written**: it holds no raw markup, all names in it are
names, and no element has two attributes with a name. -/
inductive Node.Legal : Node → Prop
  | element {name : String} {attributes : List (String × String)}
      {children : List Node} (hname : IsName name)
      (hattributes : ∀ a ∈ attributes, IsName a.1) (hdistinct : (attributes.map Prod.fst).Nodup)
      (hchildren : ∀ n ∈ children, n.Legal) : Legal (.element name attributes children)
  | text (s : String) : Legal (.text s)

/-- A document of such nodes. -/
structure Document.Legal (d : Document) : Prop extends d.Writable where
  distinct : (d.root.attributes.map Prod.fst).Nodup
  children : ∀ n ∈ d.root.children, n.Legal

mutual

/-- **A node is read as some parts.** -/
inductive Node.ReadAs : Node → List Part → Prop
  | text (s : String) : ReadAs (.text s) (s.toList.map .char)
  | element {name : String} {attributes : List (String × String)}
      {children : List Node} {content : List Part}
      (h : ReadAll children content) :
      ReadAs (.element name attributes children) [.element name attributes content]

/-- **Nodes are read one after another**, with white space in front of each and
behind the last. -/
inductive Node.ReadAll : List Node → List Part → Prop
  | nil {blanks : List Char} (hblanks : ∀ c ∈ blanks, isTagBlank c = true) :
      ReadAll [] (blanks.map .char)
  | cons {blanks : List Char} {n : Node} {nodes : List Node} {parts content : List Part}
      (hblanks : ∀ c ∈ blanks, isTagBlank c = true) (h : ReadAs n parts)
        (hnodes : ReadAll nodes content) :
      ReadAll (n :: nodes) (blanks.map .char ++ parts ++ content)

end

/-! ## Character data -/

section

variable {cs ds front : List Char}

/-- Decoding goes on behind what can be decoded. -/
theorem decodeFrom_append {reading : Option (List Char)} (h : decodeFrom reading cs = some front)
    (ds : List Char) :
    decodeFrom reading (cs ++ ds) = (decode? ds).map (front ++ ·) := by
  fun_induction decodeFrom reading cs generalizing front with
  | case1 reading hnone =>
    obtain rfl := Option.isNone_iff_eq_none.1 hnone
    obtain rfl := Option.some.inj h
    simp [decode?]
  | case2 reading hsome => exact absurd h (by simp)
  | case3 c rest hamp ih =>
    rw [List.cons_append, decodeFrom, if_pos hamp]
    exact ih h
  | case4 c rest hamp ih =>
    obtain ⟨behind, hbehind, rfl⟩ := Option.map_eq_some_iff.1 h
    rw [List.cons_append, decodeFrom, if_neg hamp, ih hbehind, Option.map_map]
    rfl
  | case5 c rest name hamp => exact absurd h (by simp)
  | case6 c rest name hamp hsemicolon ih =>
    obtain ⟨d, hd, h⟩ := Option.bind_eq_some_iff.1 h
    obtain ⟨behind, hbehind, rfl⟩ := Option.map_eq_some_iff.1 h
    rw [List.cons_append, decodeFrom]
    simp only [hamp, hsemicolon, Bool.false_eq_true, if_false, if_true]
    rw [hd, Option.bind_some, ih hbehind, Option.map_map]
    rfl
  | case7 c rest name hamp hsemicolon ih =>
    rw [List.cons_append, decodeFrom]
    simp only [hamp, hsemicolon, Bool.false_eq_true, if_false]
    exact ih h

/-- Text without references stands for itself. -/
theorem decode?_plain (h : '&' ∉ cs) : decode? cs = some cs := by
  induction cs with
  | nil => rfl
  | cons c cs ih =>
    obtain ⟨hc, hcs⟩ := not_or.1 (List.mem_cons.not.1 h)
    rw [decode?, decodeFrom, if_neg (by simpa using Ne.symm hc), ← decode?, ih hcs]
    rfl

/-- White space holds no markup. -/
theorem free_of_blank (h : ∀ c ∈ cs, isTagBlank c = true) : '<' ∉ cs ∧ '&' ∉ cs :=
  ⟨fun hmem => absurd (h _ hmem) (by decide), fun hmem => absurd (h _ hmem) (by decide)⟩

/-- Character data up to markup is at most one piece. -/
theorem exists_parses_data (h : '<' ∉ cs) (hdecode : decode? cs = some front) (rest : List Char) :
    ∃ fs, Parses fs (front.map .char) ∧ Reads (cs ++ '<' :: rest) fs ('<' :: rest) := by
  by_cases hne : cs = []
  · subst hne
    obtain rfl : [] = front := Option.some.inj hdecode
    exact ⟨[], parses_nil, .nil _⟩
  · exact ⟨[⟨.text cs, 0, cs⟩], parses_text rfl hdecode,
      .cons 0 (piece_text hne h (.inr ⟨rest, rfl⟩)) (.nil _)⟩

end

/-! ## Texts between character data -/

/-- **The text yields parts**: with any character data in front, it is read as
pieces that stand for this data and for the parts, but for what is left of them
as character data. -/
def Yields (cs : List Char) (parts : List Part) : Prop :=
  ∀ lead front behind, '<' ∉ lead → decode? lead = some front →
    ∃ fs built back rear, '<' ∉ back ∧ decode? back = some rear ∧ Parses fs built ∧
      Reads (lead ++ cs ++ behind) fs (back ++ behind) ∧
      built ++ rear.map .char = front.map .char ++ parts

section

variable {cs ds : List Char} {parts more : List Part}

theorem Yields.of_data (h : '<' ∉ cs) (hdecode : decode? cs = some ds) :
    Yields cs (ds.map .char) := by
  intro lead front behind hlead hfront
  -- nothing is read yet, since the piece may go on behind the text
  refine ⟨[], [], lead ++ cs, front ++ ds, ?_, ?_, parses_nil, .nil _, ?_⟩
  · rw [List.mem_append]
    exact not_or.2 ⟨hlead, h⟩
  · rw [decode?, decodeFrom_append hfront, hdecode]
    rfl
  · rw [List.nil_append, List.map_append]

theorem Yields.blanks (h : ∀ c ∈ cs, isTagBlank c = true) : Yields cs (cs.map .char) :=
  .of_data (free_of_blank h).1 (decode?_plain (free_of_blank h).2)

theorem Yields.append (hcs : Yields cs parts) (hds : Yields ds more) :
    Yields (cs ++ ds) (parts ++ more) := by
  intro lead front behind hlead hfront
  obtain ⟨fs, built, mid, rear, hmid, hrear, hparses, hreads, hbuilt⟩ :=
    hcs lead front (ds ++ behind) hlead hfront
  obtain ⟨gs, built', back, rear', hback, hrear', hparses', hreads', hbuilt'⟩ :=
    hds mid rear behind hmid hrear
  refine ⟨fs ++ gs, built ++ built', back, rear', hback, hrear', hparses.append hparses', ?_, ?_⟩
  · rw [← List.append_assoc] at hreads
    rw [List.append_assoc mid] at hreads'
    rw [← List.append_assoc lead]
    exact hreads.append hreads'
  · rw [List.append_assoc, hbuilt', ← List.append_assoc, hbuilt, List.append_assoc]

/-- Pieces that begin and end with markup. -/
theorem Yields.of_reads {fs : List Found} (h : Reads ('<' :: cs) fs []) (hsealed : Sealed fs)
    (hparses : Parses fs parts) : Yields ('<' :: cs) parts := by
  intro lead front behind hlead hfront
  obtain ⟨gs, hgs, hdata⟩ := exists_parses_data hlead hfront (cs ++ behind)
  have hmarkup := h.append_right hsealed behind
  rw [← List.append_nil (texts fs), h.texts_append] at hmarkup
  refine ⟨gs ++ fs, front.map .char ++ parts, [], [], List.not_mem_nil, rfl,
    hgs.append hparses, ?_, ?_⟩
  · rw [List.append_assoc]
    exact hdata.append hmarkup
  · rw [List.map_nil, List.append_nil]

/-- The parts of a text up to markup. -/
theorem Yields.exists_parses (h : Yields cs parts) (rest : List Char) :
    ∃ fs, Parses fs parts ∧ Reads (cs ++ '<' :: rest) fs ('<' :: rest) := by
  obtain ⟨fs, built, back, rear, hback, hrear, hparses, hreads, hbuilt⟩ :=
    h [] [] ('<' :: rest) List.not_mem_nil rfl
  obtain ⟨gs, hgs, hdata⟩ := exists_parses_data hback hrear rest
  refine ⟨fs ++ gs, ?_, hreads.append hdata⟩
  rw [List.map_nil, List.nil_append] at hbuilt
  rw [← hbuilt]
  exact hparses.append hgs

/-- The parts of a text that ends a document. -/
theorem Yields.exists_end (h : Yields cs parts) : ∃ fs, Parses fs parts ∧ Reads cs fs [] := by
  obtain ⟨fs, built, back, rear, hback, hrear, hparses, hreads, hbuilt⟩ :=
    h [] [] [] List.not_mem_nil rfl
  rw [List.nil_append, List.append_nil, List.append_nil] at hreads
  rw [List.map_nil, List.nil_append] at hbuilt
  rw [← hbuilt]
  by_cases hne : back = []
  · subst hne
    obtain rfl : [] = rear := Option.some.inj hrear
    exact ⟨fs, by rwa [List.map_nil, List.append_nil], hreads⟩
  · have hpiece := piece_text hne hback (.inl rfl)
    rw [List.append_nil] at hpiece
    exact ⟨_, hparses.append (parses_text rfl hrear), hreads.append (.cons 0 hpiece (.nil []))⟩

end

/-! ## Written tags -/

/-- The attributes of a written tag are read back, all of them. -/
theorem attributesIn_written {attributes : List (String × String)}
    (h : ∀ a ∈ attributes, IsName a.1)
    {behind : List Char} (hbehind : ∀ c ∈ behind, isTagBlank c = true) :
    attributesIn (attributes.flatMap attributeText ++ behind) = some attributes := by
  induction attributes with
  | nil =>
    have hnone : firstAttribute behind = .ok none := by
      rw [firstAttribute, List.dropWhile_eq_nil_iff.2 hbehind]
    rw [List.flatMap_nil, List.nil_append, attributesIn]
    split <;> simp_all
  | cons a attributes ih =>
    have hfirst := firstAttribute_attributeText (h a List.mem_cons_self)
      (attributes.flatMap attributeText ++ behind)
    rw [List.flatMap_cons, List.append_assoc, attributesIn]
    split
    · simp_all
    · simp_all
    next found value rear hread =>
      obtain ⟨rfl, rfl, rfl⟩ : _ = found ∧ _ = value ∧ _ = rear := by
        simpa using hfirst.symm.trans hread
      rw [decode?_escape, ih fun b hb => h b (List.mem_cons_of_mem _ hb)]
      simp

theorem attributes?_written {attributes : List (String × String)} (h : ∀ a ∈ attributes, IsName a.1)
    (hdistinct : (attributes.map Prod.fst).Nodup) {behind : List Char}
    (hbehind : ∀ c ∈ behind, isTagBlank c = true)
    (name : String) : (writtenTag name attributes behind).attributes? = some attributes := by
  rw [Tag.attributes?, writtenTag, attributesIn_written h hbehind]
  simp [hdistinct]

/-! ## Written nodes -/

/-- **The text says what a node says.** -/
def Node.SaidBy (n : Node) (cs : List Char) : Prop :=
  ∃ parts, n.ReadAs parts ∧ Yields cs parts

/-- **The text says what nodes say**, one after another. -/
def Node.AllSaidBy (nodes : List Node) (cs : List Char) : Prop :=
  ∃ content, Node.ReadAll nodes content ∧ Yields cs content

namespace Node

section

variable {n : Node} {nodes : List Node} {cs blanks content : List Char}

theorem allSaidBy_nil (h : ∀ c ∈ blanks, isTagBlank c = true) : AllSaidBy [] blanks :=
  ⟨_, .nil h, .blanks h⟩

/-- A node with white space in front of it, and further nodes behind it. -/
theorem AllSaidBy.cons (hblanks : ∀ c ∈ blanks, isTagBlank c = true) (h : n.SaidBy cs)
    (hnodes : AllSaidBy nodes content) : AllSaidBy (n :: nodes) (blanks ++ cs ++ content) := by
  obtain ⟨parts, hread, hyields⟩ := h
  obtain ⟨more, hreadAll, hyieldsAll⟩ := hnodes
  exact ⟨_, .cons hblanks hread hreadAll,
    ((Yields.blanks hblanks).append hyields).append hyieldsAll⟩

variable {name : String} {attributes : List (String × String)}

/-- **A written element**, if the text of its content says what its children
say. -/
theorem saidBy_element (h : IsName name) (hattributes : ∀ a ∈ attributes, IsName a.1)
    (hdistinct : (attributes.map Prod.fst).Nodup) (hcontent : AllSaidBy nodes content) :
    (Node.element name attributes nodes).SaidBy
      ((renderTag name attributes).toList ++
        '>' :: (content ++ '<' :: '/' :: (name.toList ++ ['>']))) := by
  obtain ⟨parts, hread, hyields⟩ := hcontent
  -- the end tag completes the character data that the content leaves behind
  obtain ⟨inner, hinner, hreads⟩ := hyields.exists_parses ('/' :: (name.toList ++ ['>']))
  have hall := Reads.cons 0 (piece_opening h hattributes _)
    (hreads.append (.cons 0 (piece_closing h []) (.nil [])))
  have hlast : ('<' :: '/' :: name.toList ++ ['>']).getLast? = some '>' := List.getLast?_concat
  refine ⟨_, .element hread, ?_⟩
  rw [toList_renderTag] at hall ⊢
  exact .of_reads hall (sealed_concat (_ :: inner) rfl hlast)
    (parses_element rfl rfl
      (attributes?_written hattributes hdistinct (List.forall_mem_nil _) name) hinner rfl)

/-- A written element without content. -/
theorem saidBy_empty (h : IsName name) (hattributes : ∀ a ∈ attributes, IsName a.1)
    (hdistinct : (attributes.map Prod.fst).Nodup) :
    (Node.element name attributes []).SaidBy
    ((renderTag name attributes).toList ++ [' ', '/', '>']) := by
  have hall := Reads.cons 0 (piece_empty h hattributes []) (.nil [])
  have hlast : ((renderTag name attributes).toList ++ ([' ', '/'] ++ ['>'])).getLast?
      = some '>' := by
    rw [← List.append_assoc, List.getLast?_concat]
  refine ⟨_, .element (.nil (List.forall_mem_nil _)), ?_⟩
  rw [toList_renderTag] at hall hlast ⊢
  exact .of_reads hall (sealed_concat [] rfl hlast)
    (parses_empty rfl rfl (attributes?_written hattributes hdistinct (by decide) name))

/-- Character data is escaped. -/
theorem saidBy_text (s : String) : (Node.text s).SaidBy (escapeText s).toList := by
  refine ⟨_, .text s, ?_⟩
  rw [escapeText, String.toList_ofList]
  exact .of_data (not_mem_escapeText s.toList) (decode?_flatMap decodeFrom_escapeText s.toList)

end

theorem isTagBlank_indent (depth : Nat) : ∀ c ∈ (indent depth).toList, isTagBlank c = true := by
  intro c hc
  rw [toList_indent] at hc
  rw [List.eq_of_mem_replicate hc]
  decide

/-- The children of an element on lines of their own. -/
theorem allSaidBy_renderChildren {depth : Nat} {nodes : List Node}
    (h : ∀ n ∈ nodes, ∃ cs, (n.render depth).toList = (indent depth).toList ++ cs ∧ n.SaidBy cs)
    {blanks : List Char} (hblanks : ∀ c ∈ blanks, isTagBlank c = true) :
    AllSaidBy nodes ((renderChildren depth nodes).toList ++ blanks) := by
  induction nodes with
  | nil => exact allSaidBy_nil hblanks
  | cons n nodes ih =>
    obtain ⟨cs, hrender, hsaid⟩ := h n List.mem_cons_self
    have hline : ∀ c ∈ '\n' :: (indent depth).toList, isTagBlank c = true :=
      List.forall_mem_cons.2 ⟨by decide, isTagBlank_indent depth⟩
    have hall := AllSaidBy.cons hline hsaid (ih fun m hm => h m (List.mem_cons_of_mem _ hm))
    rw [renderChildren, String.toList_append, String.toList_append, hrender]
    simpa using hall

/-- **A written node says what it was written from**, at any level. -/
theorem Legal.exists_saidBy {n : Node} (h : n.Legal) (depth : Nat) :
    ∃ cs, (n.render depth).toList = (indent depth).toList ++ cs ∧ n.SaidBy cs := by
  -- children stand one level deeper, so the level varies in the induction
  induction h generalizing depth with
  | text s => exact ⟨_, by rw [Node.render, String.toList_append], saidBy_text s⟩
  | @element name attributes children hname hattributes hdistinct _ ih =>
    cases children with
    | nil => exact ⟨_, by simp [Node.render], saidBy_empty hname hattributes hdistinct⟩
    | cons first rest =>
      have hblanks : ∀ c ∈ '\n' :: (indent depth).toList, isTagBlank c = true :=
        List.forall_mem_cons.2 ⟨by decide, isTagBlank_indent depth⟩
      have hcontent := allSaidBy_renderChildren (fun n hn => ih n hn (depth + 1)) hblanks
      exact ⟨_, by simp [Node.render], saidBy_element hname hattributes hdistinct hcontent⟩

end Node

/-! ## Written documents -/

/-- The children of a root, with blank lines between them. -/
theorem Node.allSaidBy_intercalate {nodes : List Node}
    (h : ∀ n ∈ nodes, n.Legal) {blanks : List Char}
    (hblanks : ∀ c ∈ blanks, isTagBlank c = true) :
    AllSaidBy nodes (blanks ++
      ("\n".intercalate (nodes.map fun n => n.render 1 ++ "\n")).toList) := by
  induction nodes generalizing blanks with
  | nil => simpa using allSaidBy_nil hblanks
  | cons n nodes ih =>
    obtain ⟨cs, hrender, hsaid⟩ := (h n List.mem_cons_self).exists_saidBy 1
    have hfront : ∀ c ∈ blanks ++ (indent 1).toList, isTagBlank c = true :=
      List.forall_mem_append.2 ⟨hblanks, isTagBlank_indent 1⟩
    cases nodes with
    | nil =>
      have hall := AllSaidBy.cons hfront hsaid
        (allSaidBy_nil (show ∀ c ∈ ['\n'], isTagBlank c = true by decide))
      simpa [hrender] using hall
    | cons next nodes =>
      have hall := AllSaidBy.cons hfront hsaid
        (ih (fun m hm => h m (List.mem_cons_of_mem _ hm))
          (show ∀ c ∈ ['\n', '\n'], isTagBlank c = true by decide))
      rw [List.map_cons, List.map_cons, String.intercalate_cons_cons, String.toList_append,
        String.toList_append, String.toList_append, hrender]
      simpa using hall

/-- **A written document** is its declarations, what its root says, and a line
end. -/
theorem Document.Legal.exists_render {d : Document} (h : d.Legal) :
    ∃ cs, d.root.toNode.SaidBy ('<' :: cs) ∧
      d.render.toList = "<?xml version=\"1.0\" encoding=\"UTF-8\"?>\n".toList ++
        (d.renderDoctype.toList ++ '<' :: (cs ++ ['\n'])) := by
  have htag := toList_renderTag d.root.name d.root.attributes
  rw [List.cons_append] at htag
  unfold Document.render
  split
  next hnil =>
    have hroot := Node.saidBy_empty h.root h.attributes h.distinct
    rw [htag, List.cons_append, ← hnil] at hroot
    exact ⟨_, hroot, by simp [htag]⟩
  next =>
    have hroot := Node.saidBy_element h.root h.attributes h.distinct
      (Node.allSaidBy_intercalate h.children (show ∀ c ∈ ['\n'], isTagBlank c = true by decide))
    rw [htag, List.cons_append] at hroot
    exact ⟨_, hroot, by simp [htag]⟩

/-- Declarations and line ends. -/
theorem exists_parses_layout {fs : List Found} (h : ∀ f ∈ fs, f.IsLayout) :
    ∃ parts, Parses fs parts ∧ ∀ part ∈ parts, part = .other ∨ part = .char '\n' := by
  induction fs with
  | nil => exact ⟨[], parses_nil, List.forall_mem_nil _⟩
  | cons f fs ih =>
    obtain ⟨hf, hfs⟩ := List.forall_mem_cons.1 h
    obtain ⟨parts, hparses, hparts⟩ := ih hfs
    rcases hf with hevent | hevent
    · have hother : Parses [f] [.other] := .single fun p => by rw [hevent, Parsing.step]
      exact ⟨.other :: parts, hother.append hparses, List.forall_mem_cons.2 ⟨.inl rfl, hparts⟩⟩
    · exact ⟨.char '\n' :: parts, (parses_text hevent rfl).append hparses,
        List.forall_mem_cons.2 ⟨.inr rfl, hparts⟩⟩

/-- **Parsing a written document gives back the tree it was written from**,
with nothing but declarations and line ends around it. -/
theorem parse?_render {d : Document} (h : d.Legal) :
    ∃ before root, parse? d.render = some (before ++ [root, .char '\n']) ∧ d.root.toNode.ReadAs [root] ∧
      ∀ part ∈ before, part = .other ∨ part = .char '\n' := by
  obtain ⟨cs, ⟨parts, hread, hyields⟩, hrender⟩ := h.exists_render
  obtain ⟨fs, hlayout, hheader⟩ := exists_header h.toWritable (cs ++ ['\n'])
  obtain ⟨before, hbefore, hdeclarations⟩ := exists_parses_layout hlayout
  obtain ⟨gs, hroot, hreads⟩ :=
    (hyields.append (.blanks (show ∀ c ∈ ['\n'], isTagBlank c = true by decide))).exists_end
  have hmark : d.render.toList.head? ≠ some '\uFEFF' := by
    rw [head?_render]
    decide
  have hall : Reads d.render.toList (fs ++ gs) [] := by
    rw [hrender]
    exact hheader.append hreads
  -- a root is no text, so it is read as one part
  cases hread with
  | element hchildren =>
    refine ⟨before, _, ?_, .element hchildren, hdeclarations⟩
    rw [parse?_of_reads hmark hall (hbefore.append hroot)]
    rfl

/-- A mapper whose values and texts hold all characters of markup. -/
def Document.markedMapper : Document :=
  { root :=
      { name := "mapper"
        attributes := [("namespace", "a.\"Orders\" & <b>")]
        children := [.element "sql" [("id", "x"), ("test", "a < b && c != ''")]
          [.text "</sql> & ]]>", .text "<!--"]] } }

/-- Markup in values and texts changes nothing. -/
theorem parse?_render_markedMapper : ∃ before root,
    parse? Document.markedMapper.render = some (before ++ [root, .char '\n']) ∧
      Document.markedMapper.root.toNode.ReadAs [root] ∧ ∀ part ∈ before, part = .other ∨ part = .char '\n' := by
  refine parse?_render ⟨⟨?_, ?_, ?_, ?_⟩, ?_, ?_⟩
  · exact ⟨by decide, by decide⟩
  · exact List.forall_mem_singleton.2 ⟨by decide, by decide⟩
  · simp [Document.markedMapper]
  · simp [Document.markedMapper]
  · decide
  · refine List.forall_mem_singleton.2 (.element ⟨by decide, by decide⟩ ?_ (by decide) ?_)
    · exact List.forall_mem_cons.2
        ⟨⟨by decide, by decide⟩, List.forall_mem_singleton.2 ⟨by decide, by decide⟩⟩
    · exact List.forall_mem_cons.2 ⟨.text _, List.forall_mem_singleton.2 (.text _)⟩

end TableMapper.Markup
