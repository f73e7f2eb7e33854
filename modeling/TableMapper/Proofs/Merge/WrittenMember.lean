import TableMapper.Artifact.Bean
import TableMapper.Proofs.Merge.Braces
import TableMapper.Proofs.Merge.HandWritten

/-!
# Generated members

A field is written up to its semicolon and a method up to the brace that
closes its body. In between stand names, types and lines of code, and none
of them ends a segment. So **a field or method with plain names is read as
one member** (`Field.IsPlain.isGenerated`, `Method.IsPlain.isGenerated`), with
the documentation in front of it that bears the retention tag.
-/

namespace TableMapper

namespace Source

/-- A character that begins neither a comment nor a literal, and neither
begins nor ends a segment. -/
def isQuiet (c : Char) : Bool :=
  isInert c && !(['\x7b', '\x7d', ';'].contains c)

section

variable {c : Char} {cs ds front core : List Char}

/-! ## Texts without an end of a segment -/

theorem isInert_of_isQuiet (h : isQuiet c = true) : isInert c = true :=
  (Bool.and_eq_true_iff.1 h).1

theorem ne_of_isQuiet (h : isQuiet c = true) : c ≠ '\x7b' ∧ c ≠ '\x7d' ∧ c ≠ ';' := by
  simpa [isQuiet] using (Bool.and_eq_true_iff.1 h).2

theorem isQuiet_of_isNameChar (h : isNameChar c = true) : isQuiet c = true := by
  have hne := fun {d : Char} (hd : isNameChar d = false) => ne_of_isNameChar h hd
  simp [isQuiet, JavaUnit.isInert_of_isNameChar h, hne (d := '\x7b') (by decide),
    hne (d := '\x7d') (by decide), hne (d := ';') (by decide)]

/-- The short name of a type ends no segment. -/
theorem isQuiet_of_isWritten (h : IsWritten cs) : ∀ c ∈ cs, isQuiet c = true := by
  intro c hc
  rcases h.forall c hc with hc | rfl | rfl | rfl | rfl
  · exact isQuiet_of_isNameChar hc
  all_goals decide

theorem braceless_of_isQuiet (h : ∀ c ∈ cs, isQuiet c = true) :
    ∀ c ∈ cs.map shown, c.code ∉ "\x7b\x7d;".toList := by
  intro c hc
  obtain ⟨d, hd, rfl⟩ := List.mem_map.1 hc
  simpa [shown, SourceChar.code] using ne_of_isQuiet (h d hd)

/-- **A text up to its semicolon is one segment.** -/
theorem cuts_statement (h : ∀ c ∈ cs, isQuiet c = true) :
    Cuts ((cs ++ [';']).map shown) [(cs ++ [';']).map shown] := by
  rw [List.map_append]
  exact cuts_semicolon (braceless_of_isQuiet h) rfl

/-- **A text up to the brace that closes its only block is one segment.** -/
theorem cuts_body (hcs : ∀ c ∈ cs, isQuiet c = true) (hds : ∀ c ∈ ds, isQuiet c = true ∨ c = ';') :
    Cuts ((cs ++ '\x7b' :: (ds ++ ['\x7d'])).map shown)
      [(cs ++ '\x7b' :: (ds ++ ['\x7d'])).map shown] := by
  have hnested : Nested (ds.map shown) := by
    refine nested_of_forall fun c hc => ?_
    obtain ⟨d, hd, rfl⟩ := List.mem_map.1 hc
    rcases hds d hd with hquiet | rfl
    · exact ⟨(ne_of_isQuiet hquiet).1, (ne_of_isQuiet hquiet).2.1⟩
    · exact ⟨by decide, by decide⟩
  rw [List.map_append, List.map_cons, List.map_append]
  exact cuts_block (braceless_of_isQuiet hcs) rfl hnested rfl

/-- **A segment behind comments is read as one member**, and nothing else
is. -/
theorem exists_readsAs (hfront : Silent front) (hinert : ∀ c ∈ core, isInert c = true)
    (hcuts : Cuts (core.map shown) [core.map shown])
    (hcode : ∃ c ∈ core, Text.isBlank c = false ∧ c ≠ ';')
    {text : String} (htext : text.toList = front ++ (core ++ ['\n'])) :
    ∃ member, Member.ReadsAs text member := by
  have hsegment : Cuts (markFrom .code front ++ core.map shown)
      [markFrom .code front ++ core.map shown] :=
    hcuts.lead (by simp) hfront.blank
  have hsource : Source.ofText text = (markFrom .code front ++ core.map shown) ++ [shown '\n'] := by
    rw [ofText, htext, hfront.settled, markFrom_inert hinert, List.append_assoc]
    rfl
  have hsegments : segments (Source.ofText text) = [markFrom .code front ++ core.map shown] := by
    rw [hsource, segments, hsegment]
    rfl
  -- the code of the segment is more than a semicolon
  obtain ⟨c, hc, hblank, hne⟩ := hcode
  have hkept : c ∈ trimmedCodes (markFrom .code front ++ core.map shown) := by
    have hmem : c ∈ (codes (markFrom .code front ++ core.map shown)).filter (!Text.isBlank ·) := by
      rw [codes_append, codes_map_shown]
      exact List.mem_filter.2 ⟨List.mem_append_right _ hc, by simp [hblank]⟩
    rw [← Text.filter_trim] at hmem
    exact (List.mem_filter.1 hmem).1
  have hempty : ((trimmedCodes (markFrom .code front ++ core.map shown)).isEmpty ||
      trimmedCodes (markFrom .code front ++ core.map shown) == [';']) = false := by
    rw [Bool.or_eq_false_iff, List.isEmpty_eq_false_iff, beq_eq_false_iff_ne]
    refine ⟨List.ne_nil_of_mem hkept, fun hlone => hne ?_⟩
    rw [hlone] at hkept
    exact List.mem_singleton.1 hkept
  obtain ⟨member, hmember⟩ :
      ∃ member, Member.ofSegment? (markFrom .code front ++ core.map shown) = some member := by
    rw [Member.ofSegment?]
    simp only [hempty]
    exact ⟨_, rfl⟩
  refine ⟨member, ?_, ?_⟩
  · rw [Member.ofBody, hsegments, List.filterMap_cons, hmember]
    rfl
  · rw [(eq_of_ofSegment? hmember).2.1, Text.trimmed, Text.trimmed, Source.text,
      String.toList_ofList, htext, chars_append, chars_markFrom, chars_map_shown,
      ← List.append_assoc, Text.trim_append_blanks (show Text.Blank ['\n'] by decide)]

end

end Source

open Source

/-! ## Documentation with the retention tag -/

section

variable {lines : List String} {line text : String}

theorem mem_taggedJavadoc (lines : List String) : Settings.retentionTag ∈ taggedJavadoc lines :=
  List.mem_append_right _ List.mem_cons_self

/-- Tagged documentation can be written if the documentation can. -/
theorem isJavadoc_taggedJavadoc (h : IsJavadoc lines) : IsJavadoc (taggedJavadoc lines) := by
  intro line hline
  rcases List.mem_append.1 hline with hline | hline
  · split at hline
    · exact absurd hline List.not_mem_nil
    · rcases List.mem_append.1 hline with hline | hline
      · exact h line hline
      · rw [List.mem_singleton.1 hline]
        decide
  · rw [List.mem_singleton.1 hline]
    exact not_infix_of_not_mem (by decide)

theorem isJavadoc_nil : IsJavadoc [] :=
  fun _ hline => absurd hline List.not_mem_nil

/-- **A segment behind tagged documentation is a generated member.** -/
theorem isGenerated_of_cuts {core : List Char} (hlines : IsJavadoc lines)
    (htag : Settings.retentionTag ∈ lines)
    (hinert : ∀ c ∈ core, isInert c = true) (hcuts : Cuts (core.map shown) [core.map shown])
    (hcode : ∃ c ∈ core, Text.isBlank c = false ∧ c ≠ ';')
    (htext : text.toList = (renderJavadoc memberIndent lines).toList ++ (core ++ ['\n'])) :
    IsGenerated lines text where
  javadoc := hlines
  tagged := ⟨_, htag, List.infix_rfl⟩
  readsAs := exists_readsAs (silent_javadoc (by decide) hlines) hinert hcuts hcode htext

end

/-! ## Fields -/

/-- **A field with plain names**, as generators write it. -/
structure Field.IsPlain (f : Field) : Prop where
  name : IsIdentifier f.name.toList
  type : f.type.IsPlain
  unmarked : f.annotations = []
  initializer : ∀ value ∈ f.initializer, ∀ c ∈ value.toList, isNameChar c = true
  javadoc : IsJavadoc f.javadoc
  tagged : Settings.retentionTag ∈ f.javadoc

/-- **A method with plain names**, as generators write it. -/
structure Method.IsPlain (m : Method) : Prop where
  /-- A constructor bears the name of its class. -/
  name : ∀ t ∈ m.returnType, t.IsPlain ∧ ∀ c ∈ m.name.toList, isNameChar c = true
  unmarked : m.annotations = []
  parameters : ∀ p ∈ m.parameters, p.annotations = [] ∧ p.type.IsPlain ∧ IsIdentifier p.name.toList
  /-- No line of the body opens or closes a brace. -/
  body : ∀ lines ∈ m.body, ∀ line ∈ lines, ∀ c ∈ line.toList, isQuiet c = true ∨ c = ';'
  javadoc : IsJavadoc m.javadoc
  tagged : Settings.retentionTag ∈ m.javadoc

section

variable {f : Field} {m : Method} {p : Parameter} {owner t : JavaType}

theorem isQuiet_memberIndent : ∀ c ∈ memberIndent.toList, isQuiet c = true := by
  decide

theorem isQuiet_visibility (v : Visibility) : ∀ c ∈ v.keyword.toList, isQuiet c = true := by
  cases v <;> decide

theorem isQuiet_ite {condition : Prop} [Decidable condition] {yes no : String}
    (hyes : ∀ c ∈ yes.toList, isQuiet c = true) (hno : ∀ c ∈ no.toList, isQuiet c = true) :
    ∀ c ∈ (if condition then yes else no).toList, isQuiet c = true := by
  split
  · exact hyes
  · exact hno

theorem isQuiet_shortName (h : t.IsPlain) : ∀ c ∈ t.shortName.toList, isQuiet c = true :=
  isQuiet_of_isWritten (JavaType.isWritten_shortName h)

theorem isQuiet_identifier {name : List Char} (h : IsIdentifier name) :
    ∀ c ∈ name, isQuiet c = true :=
  fun c hc => isQuiet_of_isNameChar (h.isNameChar c hc)

/-- The first character of a type is code. -/
theorem exists_code_shortName (h : t.IsPlain) :
    ∃ c ∈ t.shortName.toList, Text.isBlank c = false ∧ c ≠ ';' := by
  have hwritten := JavaType.isWritten_shortName h
  obtain ⟨c, hc⟩ := List.exists_mem_of_ne_nil _ hwritten.ne_nil
  exact ⟨c, hc, hwritten.isBlank c hc, (ne_of_isQuiet (isQuiet_of_isWritten hwritten c hc)).2.2⟩

/-- What stands in front of the semicolon of a field. -/
def Field.declaration (f : Field) : String :=
  memberIndent ++ f.visibility.keyword ++ (if f.isStatic then "static " else "") ++
    (if f.isFinal then "final " else "") ++ f.type.shortName ++ " " ++ f.name ++
    (match f.initializer with
     | some value => " = " ++ value
     | none => "")

theorem Field.toList_render (h : f.annotations = []) : f.render.toList =
    (renderJavadoc memberIndent f.javadoc).toList ++ (f.declaration.toList ++ [';'] ++ ['\n']) := by
  rw [Field.render, Field.declaration, h]
  cases hvalue : f.initializer <;> simp [renderAnnotations]

theorem Field.IsPlain.isQuiet_declaration (h : f.IsPlain) :
    ∀ c ∈ f.declaration.toList, isQuiet c = true := by
  have hinitializer : ∀ c ∈ (match f.initializer with
      | some value => " = " ++ value
      | none => "").toList, isQuiet c = true := by
    cases hvalue : f.initializer with
    | none => exact fun c hc => absurd hc List.not_mem_nil
    | some value =>
      rw [String.toList_append, List.forall_mem_append]
      exact ⟨by decide, fun c hc => isQuiet_of_isNameChar (h.initializer value hvalue c hc)⟩
  simp only [Field.declaration, String.toList_append, List.forall_mem_append]
  exact ⟨⟨⟨⟨⟨⟨⟨isQuiet_memberIndent, isQuiet_visibility _⟩, isQuiet_ite (by decide) (by decide)⟩,
    isQuiet_ite (by decide) (by decide)⟩, isQuiet_shortName h.type⟩, by decide⟩,
    isQuiet_identifier h.name⟩, hinitializer⟩

/-- **A field with plain names is read as one member.** -/
theorem Field.IsPlain.isGenerated (h : f.IsPlain) : IsGenerated f.javadoc f.render := by
  have hquiet := h.isQuiet_declaration
  obtain ⟨c, hc, hcode⟩ := exists_code_shortName h.type
  have hmem : c ∈ f.declaration.toList := by
    simp only [Field.declaration, String.toList_append, List.mem_append]
    exact .inl (.inl (.inl (.inr hc)))
  refine isGenerated_of_cuts h.javadoc h.tagged ?_ (cuts_statement hquiet)
    ⟨c, List.mem_append_left _ hmem, hcode⟩
    (Field.toList_render h.unmarked)
  rw [List.forall_mem_append]
  exact ⟨fun c hc => isInert_of_isQuiet (hquiet c hc), by decide⟩

/-! ## Methods -/

theorem isQuiet_parameter (hmarks : p.annotations = []) (htype : p.type.IsPlain)
    (hname : IsIdentifier p.name.toList) : ∀ c ∈ p.render.toList, isQuiet c = true := by
  rw [Parameter.render, hmarks]
  simp only [List.map_nil, String.join_nil, String.toList_append, List.forall_mem_append]
  exact ⟨⟨⟨by decide, isQuiet_shortName htype⟩, by decide⟩, isQuiet_identifier hname⟩

/-- The parameter list of a method. -/
theorem Method.IsPlain.isQuiet_parameters (h : m.IsPlain) :
    ∀ c ∈ (", ".intercalate (m.parameters.map (·.render))).toList, isQuiet c = true := by
  rw [String.toList_intercalate]
  refine forall_writtenList (fun text htext => ?_) (by decide) (by decide)
  obtain ⟨p, hp, rfl⟩ := List.mem_map.1 htext
  obtain ⟨hmarks, htype, hname⟩ := h.parameters p hp
  exact isQuiet_parameter hmarks htype hname

/-- A line of a body ends no segment that a brace has begun. -/
theorem isQuiet_bodyLine {line : String} (h : ∀ c ∈ line.toList, isQuiet c = true ∨ c = ';') :
    ∀ c ∈ (bodyLine line).toList, isQuiet c = true ∨ c = ';' := by
  rw [bodyLine]
  split
  · decide
  · simp only [String.toList_append, List.forall_mem_append]
    exact ⟨⟨⟨by decide, by decide⟩, h⟩, by decide⟩

theorem isQuiet_bodyLines {lines : List String}
    (h : ∀ line ∈ lines, ∀ c ∈ line.toList, isQuiet c = true ∨ c = ';') :
    ∀ c ∈ (String.join (lines.map bodyLine)).toList, isQuiet c = true ∨ c = ';' := by
  induction lines with
  | nil => exact fun c hc => absurd hc List.not_mem_nil
  | cons line lines ih =>
    rw [List.map_cons, String.join_cons, String.toList_append, List.forall_mem_append]
    exact ⟨isQuiet_bodyLine (h line List.mem_cons_self), ih fun other hother =>
      h other (List.mem_cons_of_mem line hother)⟩

/-- What stands between the braces of a body. -/
def bodyBlock (lines : List String) : String :=
  "\n" ++ String.join (lines.map bodyLine) ++ memberIndent

theorem isQuiet_bodyBlock {lines : List String}
    (h : ∀ line ∈ lines, ∀ c ∈ line.toList, isQuiet c = true ∨ c = ';') :
    ∀ c ∈ (bodyBlock lines).toList, isQuiet c = true ∨ c = ';' := by
  simp only [bodyBlock, String.toList_append, List.forall_mem_append]
  exact ⟨⟨by decide, isQuiet_bodyLines h⟩, by decide⟩

/-- The result and the name of a method; a constructor bears the name of its
owner. -/
def Method.title (owner : JavaType) (m : Method) : String :=
  match m.returnType with
  | some t => t.shortName ++ " " ++ m.name
  | none => owner.shortName

/-- What stands in front of the body of a method. -/
def Method.heading (owner : JavaType) (m : Method) : String :=
  memberIndent ++ m.visibility.keyword ++ (if m.isStatic then "static " else "") ++ m.title owner ++
    "(" ++ ", ".intercalate (m.parameters.map (·.render)) ++ ")"

theorem Method.toList_render (h : m.annotations = []) : (m.render owner).toList =
    (renderJavadoc memberIndent m.javadoc).toList ++
    ((m.heading owner).toList ++ (renderBody m.body).toList) := by
  rw [Method.render, Method.heading, Method.title, h]
  cases hreturn : m.returnType <;> simp [renderAnnotations]

namespace Method.IsPlain

theorem isQuiet_title (h : m.IsPlain) (howner : owner.IsPlain) :
    ∀ c ∈ (m.title owner).toList, isQuiet c = true := by
  rw [title]
  cases hreturn : m.returnType with
  | none => exact isQuiet_shortName howner
  | some t =>
    obtain ⟨ht, hname⟩ := h.name t hreturn
    simp only [String.toList_append, List.forall_mem_append]
    exact ⟨⟨isQuiet_shortName ht, by decide⟩, fun c hc => isQuiet_of_isNameChar (hname c hc)⟩

theorem exists_code_title (h : m.IsPlain) (howner : owner.IsPlain) :
    ∃ c ∈ (m.title owner).toList, Text.isBlank c = false ∧ c ≠ ';' := by
  rw [title]
  cases hreturn : m.returnType with
  | none => exact exists_code_shortName howner
  | some t =>
    obtain ⟨c, hc, hcode⟩ := exists_code_shortName (h.name t hreturn).1
    simp only [String.toList_append]
    exact ⟨c, List.mem_append_left _ (List.mem_append_left _ hc), hcode⟩

theorem isQuiet_heading (h : m.IsPlain) (howner : owner.IsPlain) :
    ∀ c ∈ (m.heading owner).toList, isQuiet c = true := by
  simp only [heading, String.toList_append, List.forall_mem_append]
  exact ⟨⟨⟨⟨⟨⟨isQuiet_memberIndent, isQuiet_visibility _⟩, isQuiet_ite (by decide) (by decide)⟩,
    h.isQuiet_title howner⟩, by decide⟩, h.isQuiet_parameters⟩, by decide⟩

/-- **A method with plain names is read as one member**, in the class it
belongs to. -/
theorem isGenerated (h : m.IsPlain) (howner : owner.IsPlain) :
    IsGenerated m.javadoc (m.render owner) := by
  have hquiet := h.isQuiet_heading howner
  have hinert : ∀ c ∈ (m.heading owner).toList, isInert c = true :=
    fun c hc => isInert_of_isQuiet (hquiet c hc)
  have hrender := @Method.toList_render m owner h.unmarked
  obtain ⟨c, hc, hcode⟩ := h.exists_code_title howner
  have hmem : c ∈ (m.heading owner).toList := by
    simp only [heading, String.toList_append, List.mem_append]
    exact .inl (.inl (.inl (.inr hc)))
  -- a declaration ends with its semicolon, any other method with its block
  cases hbody : m.body with
  | none =>
    refine isGenerated_of_cuts h.javadoc h.tagged ?_ (cuts_statement hquiet)
      ⟨c, List.mem_append_left _ hmem, hcode⟩ ?_
    · rw [List.forall_mem_append]
      exact ⟨hinert, by decide⟩
    · rw [hrender, hbody]
      simp [renderBody]
  | some lines =>
    have hblock := isQuiet_bodyBlock (h.body lines hbody)
    have hhead : ∀ c ∈ (m.heading owner).toList ++ [' '], isQuiet c = true := by
      rw [List.forall_mem_append]
      exact ⟨hquiet, by decide⟩
    refine isGenerated_of_cuts h.javadoc h.tagged ?_ (cuts_body hhead hblock)
      ⟨c, List.mem_append_left _ (List.mem_append_left _ hmem), hcode⟩ ?_
    · simp only [List.forall_mem_append, List.forall_mem_cons]
      refine ⟨⟨hinert, by decide⟩, by decide, fun c hc => ?_, by decide⟩
      rcases hblock c hc with hc | rfl
      · exact isInert_of_isQuiet hc
      · decide
    · rw [hrender, hbody]
      simp [renderBody, bodyBlock]

end Method.IsPlain

end

end TableMapper
