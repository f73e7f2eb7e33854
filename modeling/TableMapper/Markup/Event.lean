/-!
# Markup as a stream of events

An existing document is read as a stream of pieces, each with what it is: a
start tag, an end tag, character data, a comment, or something else.
**Nothing is lost**: the texts of the pieces, one after the other, are the
part of the document that was read (`piece_append`). A document that stops
in the middle of a start tag, a comment, a data section or a document type
is malformed where that piece begins; an end tag may run to the end of the
text, and a lone `<` at the end is not read at all.

Whether end tags fit the start tags is not decided here.
-/

namespace TableMapper.Markup

/-- White space inside tags. -/
def isTagBlank (c : Char) : Bool :=
  c == ' ' || c == '\t' || c == '\r' || c == '\n'

/-- A start tag: the name, and the text behind it that holds the
attributes. -/
structure Tag where
  name : List Char
  rest : List Char
deriving Repr, DecidableEq

/-- The tag whose name ends at the first blank of the text. -/
def Tag.ofContent (content : List Char) : Tag :=
  ⟨content.takeWhile (!isTagBlank ·), content.dropWhile (!isTagBlank ·)⟩

/-- What a piece of a document is. -/
inductive Event
  /-- A start tag. -/
  | opening (tag : Tag)
  /-- A tag that opens and closes an element. -/
  | empty (tag : Tag)
  /-- An end tag, with the name it closes. -/
  | closing (name : List Char)
  | comment
  | text (content : List Char)
  /-- A declaration, a processing instruction, a data section or a document
  type. -/
  | other
deriving Repr, DecidableEq

/-! ## Where markup ends -/

/-- The text up to the first `>` in front of which `complete` holds of the
text read, which is held in reverse, and the rest behind that `>`. -/
def upToClose (complete : List Char → Bool) (read : List Char) :
    List Char → Option (List Char × List Char)
  | [] => none
  | c :: rest =>
    if c == '>' && complete read then some (read.reverse, rest)
    else upToClose complete (c :: read) rest

/-- The text up to the first `>` outside quotes, and the rest behind it. -/
def upToTagEnd (quote : Option Char) (read : List Char) :
    List Char → Option (List Char × List Char)
  | [] => none
  | c :: rest =>
    match quote with
    | some q => upToTagEnd (if c == q then none else quote) (c :: read) rest
    | none =>
      if c == '>' then some (read.reverse, rest)
      else upToTagEnd (if c == '"' || c == '\x27' then some c else none) (c :: read) rest

theorem upToClose_eq {complete : List Char → Bool} {read cs content rest : List Char}
    (h : upToClose complete read cs = some (content, rest)) :
    content ++ '>' :: rest = read.reverse ++ cs := by
  fun_induction upToClose complete read cs with
  | case1 => simp at h
  | case2 read c cs hc =>
    simp only [Bool.and_eq_true, beq_iff_eq] at hc
    simp only [Option.some.injEq, Prod.mk.injEq] at h
    rw [← h.1, ← h.2, hc.1]
  | case3 read c cs _ ih => simpa using ih h

theorem upToTagEnd_eq {quote : Option Char} {read cs content rest : List Char}
    (h : upToTagEnd quote read cs = some (content, rest)) :
    content ++ '>' :: rest = read.reverse ++ cs := by
  fun_induction upToTagEnd quote read cs with
  | case1 => simp at h
  | case2 read c cs q ih => simpa using ih h
  | case3 read c cs hc =>
    simp only [beq_iff_eq] at hc
    simp only [Option.some.injEq, Prod.mk.injEq] at h
    rw [← h.1, ← h.2, hc]
  | case4 read c cs _ ih => simpa using ih h

/-- A comment may end in front of this `>`: the text read, `!--` included,
ends with two hyphens that are not those of its beginning. -/
def commentComplete : List Char → Bool
  | '-' :: '-' :: before => before.length > 2
  | _ => false

/-- A data section may end in front of this `>`. -/
def dataComplete : List Char → Bool
  | ']' :: ']' :: _ => true
  | _ => false

/-- A document type may end in front of this `>`: every `<` in it is
matched. -/
def doctypeComplete (read : List Char) : Bool :=
  read.count '<' == read.count '>'

/-- `s` begins with `start`, letters of either case being the same. -/
def beginsWith (start s : List Char) : Bool :=
  s.length ≥ start.length && (s.take start.length).map Char.toUpper == start

/-! ## One piece -/

/-- What stands at a position of a document. -/
inductive Piece
  /-- The end of the document. -/
  | finished
  /-- Markup that is not well formed. -/
  | malformed
  /-- An event with its own text, and the rest of the document. -/
  | read (event : Event) (text rest : List Char)
deriving Repr, DecidableEq

/-- An event from the markup between `<` and `>`, if it is one. -/
def Piece.between (event? : List Char → Option Event) :
    Option (List Char × List Char) → Piece
  | none => .malformed
  | some (content, rest) =>
    match event? content with
    | none => .malformed
    | some event => .read event ('<' :: content ++ ['>']) rest

/-- Markup that begins with `!`. -/
def bang (cs : List Char) : Piece :=
  match cs with
  | _ :: '-' :: _ =>
    Piece.between (fun content => if beginsWith ['!', '-', '-'] content then some .comment else none)
      (upToClose commentComplete [] cs)
  | _ :: '[' :: _ =>
    Piece.between
      (fun content =>
        if beginsWith ['!', '[', 'C', 'D', 'A', 'T', 'A', '['] (content.take (content.length - 2))
        then some .other else none)
      (upToClose dataComplete [] cs)
  | _ :: 'D' :: _ | _ :: 'd' :: _ =>
    Piece.between
      (fun content =>
        if beginsWith ['!', 'D', 'O', 'C', 'T', 'Y', 'P', 'E'] content &&
            (content.drop 8).any (!isTagBlank ·)
        then some .other else none)
      (upToClose doctypeComplete [] cs)
  | _ => .malformed

/-- An end tag, from the `/` on. One that is not closed reaches to the end
of the document. -/
def endTag (cs : List Char) : Piece :=
  let content := cs.takeWhile (· != '>')
  let name := ((content.drop 1).reverse.dropWhile isTagBlank).reverse
  let name := if (content.drop 1).all isTagBlank then content.drop 1 else name
  match cs.dropWhile (· != '>') with
  | [] => .read (.closing name) ('<' :: content) []
  | close :: rest => .read (.closing name) ('<' :: content ++ [close]) rest

/-- A declaration or processing instruction, from the `?` on. -/
def instruction (cs : List Char) : Piece :=
  let content := cs.takeWhile (· != '>')
  let complete := content.length > 1 && content.getLast? == some '?'
  match complete, cs.dropWhile (· != '>') with
  | false, _ => .malformed
  | true, [] => .read .other ('<' :: content) []
  | true, close :: rest => .read .other ('<' :: content ++ [close]) rest

/-- The event of a start tag with the given content; a `/` at the end
closes the element. -/
def tagEvent (content : List Char) : Event :=
  if content.getLast? == some '/' then .empty (Tag.ofContent content.dropLast)
  else .opening (Tag.ofContent content)

/-- **The piece at the beginning of a text.** -/
def piece : List Char → Piece
  | [] => .finished
  | ['<'] => .finished
  | '<' :: '!' :: rest => bang ('!' :: rest)
  | '<' :: '/' :: rest => endTag ('/' :: rest)
  | '<' :: '?' :: rest => instruction ('?' :: rest)
  | '<' :: rest => Piece.between (fun content => some (tagEvent content)) (upToTagEnd none [] rest)
  | cs =>
    let content := cs.takeWhile (· != '<')
    .read (.text content) content (cs.dropWhile (· != '<'))

/-! ## Nothing is lost -/

theorem between_append {event? : List Char → Option Event} {cs : List Char}
    {found : Option (List Char × List Char)} {event : Event} {text rest : List Char}
    (hfound : ∀ content rest, found = some (content, rest) → content ++ '>' :: rest = cs)
    (h : Piece.between event? found = .read event text rest) :
    text ++ rest = '<' :: cs ∧ text ≠ [] := by
  cases found with
  | none => simp [Piece.between] at h
  | some pair =>
    obtain ⟨content, behind⟩ := pair
    have hcut := hfound content behind rfl
    simp only [Piece.between] at h
    split at h
    · simp at h
    · simp only [Piece.read.injEq] at h
      obtain ⟨-, rfl, rfl⟩ := h
      simp [← hcut]

theorem bang_append {cs text rest : List Char} {event : Event}
    (h : bang cs = .read event text rest) : text ++ rest = '<' :: cs ∧ text ≠ [] := by
  have hup : ∀ complete content rest, upToClose complete [] cs = some (content, rest) →
      content ++ '>' :: rest = cs := fun complete content rest h => by
    simpa using upToClose_eq h
  unfold bang at h
  split at h
  · exact between_append (hup _) h
  · exact between_append (hup _) h
  · exact between_append (hup _) h
  · exact between_append (hup _) h
  · simp at h

theorem endTag_append {cs text rest : List Char} {event : Event}
    (h : endTag cs = .read event text rest) : text ++ rest = '<' :: cs ∧ text ≠ [] := by
  have hcut := List.takeWhile_append_dropWhile (p := (· != '>')) (l := cs)
  unfold endTag at h
  split at h
  next hdrop =>
    simp only [Piece.read.injEq] at h
    obtain ⟨-, rfl, rfl⟩ := h
    rw [hdrop] at hcut
    simp_all
  next close behind hdrop =>
    simp only [Piece.read.injEq] at h
    obtain ⟨-, rfl, rfl⟩ := h
    rw [hdrop] at hcut
    simp [hcut]

theorem instruction_append {cs text rest : List Char} {event : Event}
    (h : instruction cs = .read event text rest) : text ++ rest = '<' :: cs ∧ text ≠ [] := by
  have hcut := List.takeWhile_append_dropWhile (p := (· != '>')) (l := cs)
  unfold instruction at h
  extract_lets content complete at h
  split at h
  · simp at h
  next hdrop =>
    simp only [Piece.read.injEq] at h
    obtain ⟨-, rfl, rfl⟩ := h
    rw [hdrop] at hcut
    simp_all [content]
  next close behind _ hdrop =>
    simp only [Piece.read.injEq] at h
    obtain ⟨-, rfl, rfl⟩ := h
    rw [hdrop] at hcut
    simp [content, hcut]

/-- **A piece and the rest are the text**, and a piece is not empty. -/
theorem piece_append {cs text rest : List Char} {event : Event}
    (h : piece cs = .read event text rest) : text ++ rest = cs ∧ text ≠ [] := by
  unfold piece at h
  split at h
  · simp at h
  · simp at h
  · exact bang_append h
  · exact endTag_append h
  · exact instruction_append h
  · exact between_append (fun content rest h => by simpa using upToTagEnd_eq h) h
  next hnil _ _ _ _ hopen =>
    simp only [Piece.read.injEq] at h
    obtain ⟨-, rfl, rfl⟩ := h
    refine ⟨List.takeWhile_append_dropWhile, ?_⟩
    cases cs with
    | nil => exact absurd rfl hnil
    | cons c cs =>
      have : c ≠ '<' := fun hc => hopen cs (by rw [hc])
      simp [this]

theorem piece_length {cs text rest : List Char} {event : Event}
    (h : piece cs = .read event text rest) : rest.length < cs.length := by
  obtain ⟨hcut, hne⟩ := piece_append h
  have := List.length_pos_iff.2 hne
  rw [← hcut, List.length_append]
  omega

/-! ## The whole document -/

/-- The number of bytes of a text in UTF-8. -/
def byteSize (cs : List Char) : Nat :=
  (String.ofList cs).utf8ByteSize

/-- An event, where it begins in bytes, and its text. -/
structure Found where
  event : Event
  start : Nat
  text : List Char
deriving Repr, DecidableEq

/-- The events of a document up to its end or up to where it is malformed. -/
structure Reading where
  events : List Found := []
  /-- Where the document is malformed. -/
  malformed : Option Nat := none
deriving Repr, DecidableEq

/-- **The events of a text** that begins at a byte position. -/
def Reading.ofText (start : Nat) (cs : List Char) : Reading :=
  match _h : piece cs with
  | .finished => {}
  | .malformed => { malformed := some start }
  | .read event text rest =>
    let behind := Reading.ofText (start + byteSize text) rest
    { behind with events := ⟨event, start, text⟩ :: behind.events }
termination_by cs.length
decreasing_by exact piece_length _h

/-- The characters that begin in the first `size` bytes of a text, the rest,
and by how many bytes the last of them reaches further. -/
def splitBytes : Nat → List Char → List Char × List Char × Nat
  | _, [] => ([], [], 0)
  | size, c :: rest =>
    if size = 0 then ([], c :: rest, 0)
    else if size ≤ c.utf8Size then ([c], rest, c.utf8Size - size)
    else
      let (front, back, excess) := splitBytes (size - c.utf8Size) rest
      (c :: front, back, excess)

/-- The events with the texts that stand at their positions in another text.
A character belongs to the event in which it begins; the first `excess`
bytes are those of a character that belongs to an earlier event. -/
def displace : Nat → List Char → List Found → List Found
  | _, _, [] => []
  | excess, cs, found :: rest =>
    let size := byteSize found.text
    if size ≤ excess then { found with text := [] } :: displace (excess - size) cs rest
    else
      let (front, back, excess) := splitBytes (size - excess) cs
      { found with text := front } :: displace excess back rest

/-- **The events of a document.** A byte order mark in front is skipped, but
the positions of the events are taken to count from the mark on, so that
the texts found at them are displaced by its length. -/
def Reading.ofDocument (s : String) : Reading :=
  match s.toList with
  | '\uFEFF' :: rest =>
    let reading := Reading.ofText 0 rest
    { reading with events := displace 0 s.toList reading.events }
  | cs => Reading.ofText 0 cs

end TableMapper.Markup
