import TableMapper.Proofs.Unit.WrittenUnit

/-!
# What is read from a written file

**The imports and annotations of a written file are read as they were
written** (`Declared.ofSource?_render`), and so is what its type extends and
implements, unless the type is an array or the word that introduces the
interfaces ends the name of the superclass (`Legible.readClauses_eq`,
`Legible.readSuperclass_ne`).
-/

namespace TableMapper.JavaUnit

open Source

section

variable {u : JavaUnit}

/-! ## The imports and annotations -/

theorem code_ne_of_isBlank {c : SourceChar} {d : Char} (h : Text.isBlank c.code = true)
    (hd : Text.isBlank d = false) : c.code ≠ d := by
  intro heq
  rw [heq, hd] at h
  exact Bool.noConfusion h

theorem keyword_plain (v : Visibility) : ∀ c ∈ v.keyword.toList, c ≠ ';' ∧ c ≠ '@' ∧ c ≠ '(' := by
  cases v <;> decide

/-- No import ends in front of the declaration behind the other imports. -/
theorem Legible.semicolon_headSource (h : u.Legible) : ∀ c ∈ u.headSource, c.code ≠ ';' := by
  intro c hc
  rcases List.mem_append.1 hc with hc | hc
  · exact code_ne_of_isBlank (h.solid.silent_javadoc.blank c hc) (by decide)
  rcases List.mem_append.1 hc with hc | hc
  · exact semicolon_annotationLines h.annotations c hc
  · obtain ⟨d, hd, rfl⟩ := List.mem_map.1 hc
    exact (keyword_plain u.visibility d hd).1

/-- The package line is no import. -/
theorem Legible.importsFrom_packageLines (h : u.Legible) (rest : Source) :
    importsFrom true (u.packageLines.map shown ++ rest) = importsFrom true rest := by
  unfold packageLines
  cases hpackage : u.type.packageName? with
  | none => rfl
  | some package =>
    have hline : ∀ c ∈ ("package".toList ++ ' ' :: (package.toList ++ [';'])).map shown,
        c.code ≠ '\n' := by
      intro c hc
      obtain ⟨d, hd, rfl⟩ := List.mem_map.1 hc
      simp only [List.mem_append, List.mem_cons, List.not_mem_nil, or_false] at hd
      rcases hd with hd | rfl | hd | rfl
      · exact (by decide : ∀ d ∈ "package".toList, (shown d).code ≠ '\n') d hd
      · decide
      · rcases (h.package package hpackage).forall d hd with hchar | rfl
        · exact ne_of_isNameChar hchar (by decide)
        · decide
      · decide
    have hcut : ("package".toList ++ ' ' :: (package.toList ++ [';']) ++
        ['\n', '\n']).map shown ++ rest
        = ("package".toList ++ ' ' :: (package.toList ++ [';'])).map shown ++
            shown '\n' :: (shown '\n' :: rest) := by
      simp
    show importsFrom true
        (("package".toList ++ ' ' :: (package.toList ++ [';']) ++ ['\n', '\n']).map shown ++ rest)
          = _
    rw [hcut, ← importsFrom_blank_line rest]
    exact importsFrom_other_line hline rfl

/-- **The imports of a written file**, as far as they are recognised. -/
theorem Legible.importsFrom_preludeSource (h : u.Legible) :
    (importsFrom true u.preludeSource).1 = u.imports.filter isReadable := by
  have hhead : importsFrom true u.headSource = ([], none) :=
    importsFrom_of_no_semicolon h.semicolon_headSource true
  rw [preludeSource, toList_renderPrelude, List.map_append, List.append_assoc,
    h.importsFrom_packageLines]
  unfold importsText
  split
  next hnone =>
    rw [List.map_nil, List.nil_append, hhead, hnone]
    rfl
  · rw [List.map_append, List.append_assoc, importsFrom_importLines h.imports]
    show u.imports.filter isReadable ++ (importsFrom true (shown '\n' :: u.headSource)).1 = _
    rw [importsFrom_blank_line, hhead, List.append_nil]

/-- **The annotations of a written file.** -/
theorem Legible.marksFrom_headSource (h : u.Legible) :
    marksFrom 0 u.headSource = u.annotations.map ofText := by
  have hjavadoc : ∀ c ∈ markFrom .code (renderJavadoc "" u.javadoc).toList, c.code ≠ '@' :=
    fun c hc => code_ne_of_isBlank (h.solid.silent_javadoc.blank c hc) (by decide)
  have hvisibility : ∀ c ∈ u.visibility.keyword.toList.map shown, c.code ≠ '@' ∧ c.code ≠ '(' := by
    intro c hc
    obtain ⟨d, hd, rfl⟩ := List.mem_map.1 hc
    exact (keyword_plain u.visibility d hd).2
  have hnone : marksFrom 0 (u.visibility.keyword.toList.map shown) = [] := by
    rw [← List.append_nil (u.visibility.keyword.toList.map shown),
      marksFrom_append fun c hc => (hvisibility c hc).1]
    rfl
  rw [headSource, marksFrom_append hjavadoc, marksFrom_annotations h.annotations,
    hnone, List.append_nil]
  intro c hc
  exact (hvisibility c ((List.dropWhile_suffix _).subset (List.mem_of_mem_head? hc))).2

theorem Legible.marksFrom_preludeSource (h : u.Legible) :
    (marksFrom 0 (((importsFrom true u.preludeSource).2.or (behindPackage u.preludeSource)).getD
        u.preludeSource)).map (·.text) = u.annotations := by
  have hplain : ∀ c ∈ u.renderPrelude.toList.map shown, c.code ≠ '@' := by
    intro c hc
    obtain ⟨d, hd, rfl⟩ := List.mem_map.1 hc
    exact (h.solid.renderPrelude_plain d hd).2
  rw [preludeSource, marksFrom_behindPrelude hplain h.semicolon_headSource,
    h.marksFrom_headSource, map_text_ofText]

/-! ## The declaration -/

/-- The clauses begin with a blank, if there are any. -/
theorem clausesText_cases (u : JavaUnit) :
    u.clausesText = [] ∨ ∃ core, u.clausesText = ' ' :: core := by
  unfold clausesText superclassText
  cases u.superclass with
  | some t => exact .inr ⟨_, rfl⟩
  | none =>
    rw [List.nil_append, interfacesText]
    split
    · exact .inl rfl
    · cases u.kind with
      | «class» => exact .inr ⟨_, rfl⟩
      | interface => exact .inr ⟨_, rfl⟩

/-- The name declared ends where brackets or arguments begin. -/
theorem isNamePart_tail {tail : List Char} (h : IsNameTail tail) :
    ∀ c ∈ tail.head?, isNamePart c = false := by
  cases h with
  | array dimensions =>
    cases dimensions with
    | zero => simp [brackets]
    | succ dimensions =>
      rintro c ⟨⟩
      decide
  | argument hname dimensions =>
    rintro c ⟨⟩
    decide

/-- The name declared ends where the header begins. -/
theorem head?_clausesText {tail : List Char} (htail : ∀ c ∈ tail.head?, isNamePart c = false) :
    ∀ c ∈ (tail ++ (u.clausesText ++ [' '])).head?, isNamePart c = false := by
  cases tail with
  | cons c tail => exact htail
  | nil =>
    rw [List.nil_append]
    rcases u.clausesText_cases with hnone | ⟨core, hcore⟩
    · rw [hnone]
      rintro c ⟨⟩
      decide
    · rw [hcore]
      rintro c ⟨⟩
      decide

/-- The class that is read from a header. -/
def superclassIn (kind : TypeKind) (header : List Char) : Option String :=
  if kind = .interface then none else (clauses header).extends?.head?

/-- The interfaces that are read from a header. -/
def superInterfacesIn (kind : TypeKind) (header : List Char) : List String :=
  if kind = .interface then (clauses header).extends? else (clauses header).implements

/-- The class that is read from the header. -/
def readSuperclass (u : JavaUnit) : Option String :=
  if u.kind = .interface then none else (clauses u.headerText).extends?.head?

/-- The interfaces that are read from the header. -/
def readSuperInterfaces (u : JavaUnit) : List String :=
  if u.kind = .interface then (clauses u.headerText).extends? else (clauses u.headerText).implements

/-- **What is read from a written file.** -/
def declared (u : JavaUnit) : Declared where
  kind := u.kind.declared
  superclass := u.readSuperclass
  superInterfaces := u.readSuperInterfaces
  imports := u.imports.filter isReadable
  annotations := u.annotations
  body := markFrom .code u.bodyText

theorem declared_eq_interface (kind : TypeKind) :
    kind.declared = .interface ↔ kind = .interface := by
  cases kind <;> decide

/-- **Where the declaration of a written file is found.** -/
theorem Solid.findDeclaration_render (h : u.Solid) {name tail : List Char}
    (hname : IsDeclarable name)
    (htail : ∀ c ∈ tail, isInert c = true) (hend : ∀ c ∈ tail.head?, isNamePart c = false)
    (hshort : u.type.shortName.toList = name ++ tail) :
    findDeclaration [] (ofText u.render) = some ⟨u.kind.declared, u.preludeSource,
      (tail ++ (u.clausesText ++ [' '])).map shown ++ shown '\x7b' ::
      markFrom .code u.bodyText⟩ := by
  rw [h.ofText_render hname htail hshort, h.idle_preludeSource, List.append_nil,
    findDeclaration_keyword u.kind hname, List.reverse_reverse]
  · intro c hc
    rw [List.head?_reverse] at hc
    exact isWordChar_of_isBlank (h.endsBlank_preludeSource c hc)
  · intro c hc
    rw [List.head?_append, List.head?_map] at hc
    cases hhead : (tail ++ (u.clausesText ++ [' '])).head? with
    | none => exact absurd (List.head?_eq_none_iff.1 hhead) (by simp)
    | some d =>
      rw [hhead] at hc
      obtain rfl : shown d = c := by simpa using hc
      exact head?_clausesText hend d hhead

theorem Legible.findDeclaration_render (h : u.Legible) {name : List Char}
    (hname : IsIdentifier name)
    (hshort : u.type.shortName.toList = name ++ u.type.shortName.toList.dropWhile isNameChar) :
    findDeclaration [] (ofText u.render) = some ⟨u.kind.declared, u.preludeSource,
      u.headerText.map shown ++ shown '\x7b' :: markFrom .code u.bodyText⟩ := by
  obtain ⟨-, -, htail, -⟩ := h.exists_name
  exact h.solid.findDeclaration_render hname.isDeclarable
    (fun c hc => (h.headerText_plain c (List.mem_append_left _ hc)).1)
      (isNamePart_tail htail) hshort

/-- **The declaration of a written file**, with its imports and
annotations. -/
theorem Legible.ofSource?_render (h : u.Legible) :
    Declared.ofSource? (ofText u.render) = some u.declared := by
  obtain ⟨name, hname, -, hshort⟩ := h.exists_name
  refine Declared.ofSource?_eq_some_iff.2
    ⟨_, u.headerText.map shown, shown '\x7b', markFrom .code u.bodyText,
      h.findDeclaration_render hname hshort, rfl, ?_, rfl, ?_⟩
  · intro c hc
    obtain ⟨d, hd, rfl⟩ := List.mem_map.1 hc
    exact (h.headerText_plain d hd).2
  · rw [Declared.ofDeclaration, declared, readSuperclass, readSuperInterfaces]
    simp only [blanked_map_shown, h.importsFrom_preludeSource, h.marksFrom_preludeSource,
      declared_eq_interface]

end

/-!
## What a written type is read to extend and implement

**The superclass and the interfaces of a written type are read as they were
written** (`Legible.readClauses_eq`) unless something hides them: nothing is
read behind the brackets of an array (`Legible.readClauses_array`), and a
superclass whose name ends with the word that introduces the interfaces is
cut in front of it (`Legible.readSuperclass_cut`).
-/

/-- A type that is declared with the brackets of an array. -/
def IsArray (u : JavaUnit) : Prop :=
  u.type.shortName.toList.getLast? = some ']'

/-- **A superclass that can be read back**: nothing hides the clauses, and
if there are interfaces behind it, its name does not end with the word that
introduces them. -/
def SuperclassLegible (u : JavaUnit) : Prop :=
  ∀ t ∈ u.superclass, ¬ u.IsArray ∧
    (u.superInterfaces ≠ [] → ¬ "implements".toList <:+ t.shortName.toList)

section

variable {u : JavaUnit} {word front core : List Char} {names : List String} {t : JavaType}

/-! ### What stands behind the name of the type -/

theorem Solid.areWritten (h : u.Solid) (hne : u.superInterfaces ≠ []) :
    AreWritten u.interfaceNames where
  ne_nil := by simpa [interfaceNames] using hne
  isItem := by
    intro name hname
    obtain ⟨t, ht, rfl⟩ := List.mem_map.1 hname
    exact (h.superInterfaces t ht).isItem

theorem Solid.superclass_areWritten (h : u.Solid) (ht : t ∈ u.superclass) :
    AreWritten [t.shortName] where
  ne_nil := List.cons_ne_nil _ _
  isItem := by simpa using (h.superclass t ht).isItem

theorem Solid.kind_of_superclass (h : u.Solid) (ht : t ∈ u.superclass) : u.kind = .class := by
  cases hkind : u.kind with
  | «class» => rfl
  | interface =>
    rw [h.noSuperclass hkind] at ht
    exact absurd ht (Option.not_mem_none t)

/-- The brackets of an array are all that stands between the identifier and
the clauses. -/
theorem Legible.exists_brackets (h : u.Legible) (harray : u.IsArray) :
    ∃ dimensions, u.type.shortName.toList.dropWhile isNameChar = brackets (dimensions + 1) := by
  obtain ⟨name, hname, htail, hshort⟩ := h.exists_name
  rw [IsArray, hshort] at harray
  generalize u.type.shortName.toList.dropWhile isNameChar = tail at htail harray ⊢
  cases htail with
  | array dimensions =>
    cases dimensions with
    | zero =>
      rw [brackets, List.append_nil] at harray
      exact absurd (List.mem_of_getLast? harray) (hname.not_mem (by decide))
    | succ dimensions => exact ⟨dimensions, rfl⟩
  | @argument item hitem dimensions =>
    have hlast : (name ++ '<' :: (item ++ brackets dimensions ++ ['>'])).getLast? = some '>' := by
      rw [← List.cons_append, ← List.append_assoc, List.getLast?_concat]
    rw [hlast] at harray
    exact absurd harray (by decide)

theorem Legible.getLast?_ne (h : u.Legible) (harray : ¬ u.IsArray) :
    (u.type.shortName.toList.dropWhile isNameChar).getLast? ≠ some ']' := by
  obtain ⟨name, -, -, hshort⟩ := h.exists_name
  intro hlast
  refine harray ?_
  rw [IsArray, hshort, List.getLast?_append, hlast]
  rfl

theorem superclassText_of_mem (ht : t ∈ u.superclass) :
    u.superclassText = ' ' :: ("extends".toList ++ ' ' :: t.shortName.toList) := by
  rw [superclassText, Option.mem_def.1 ht]

theorem interfacesText_class (hkind : u.kind = .class) (hne : u.superInterfaces ≠ []) :
    u.interfacesText = ' ' :: ("implements".toList ++ ' ' :: writtenList u.interfaceNames) := by
  rw [interfacesText, if_neg hne, hkind]

theorem interfacesText_interface (hkind : u.kind = .interface) (hne : u.superInterfaces ≠ []) :
    u.interfacesText = ' ' :: ("extends".toList ++ ' ' :: writtenList u.interfaceNames) := by
  rw [interfacesText, if_neg hne, hkind]

/-! ### The clauses as they are read -/

section

variable {tail : List Char} (htail : IsNameTail tail) (harray : tail.getLast? ≠ some ']')
include htail harray

/-- Without clauses none are read. -/
theorem clauses_of_none (hclauses : u.clausesText = []) :
    clauses (tail ++ (u.clausesText ++ [' '])) = {} := by
  have hnone : Text.Blank [] := by decide
  have hblank : Text.Blank [' '] := by decide
  rw [hclauses, show ([] : List Char) ++ [' '] = [] ++ [] ++ [' '] from rfl, ← clausesOf_nil]
  exact clauses_append htail harray hnone hblank rfl (by simp)

/-- **The clauses that are read** begin with a word and end with the names of
some types. -/
theorem clauses_of_word (hnames : AreWritten names)
    (hword : ∃ c letters, word = c :: letters ∧ Text.isBlank c = false ∧ c ≠ '<')
    (hclauses : u.clausesText = ' ' :: (word ++ ' ' :: writtenList names)) :
    clauses (tail ++ (u.clausesText ++ [' '])) = clausesOf (word ++ ' ' :: writtenList names) := by
  have hfirst : ∀ c ∈ (word ++ ' ' :: writtenList names).head?,
      Text.isBlank c = false ∧ c ≠ '<' := by
    obtain ⟨c, letters, rfl, hc⟩ := hword
    rintro d ⟨⟩
    exact hc
  have hlast : ∀ c ∈ (word ++ ' ' :: writtenList names).getLast?, Text.isBlank c = false := by
    obtain ⟨-, cs, last, hcs, hlast⟩ := hnames.ends
    intro d hd
    rw [hcs, ← List.cons_append, ← List.append_assoc, List.getLast?_concat] at hd
    obtain rfl : last = d := by simpa using hd
    exact hlast
  have htrim := Text.trim_eq_self (fun c hc => (hfirst c hc).1) hlast
  have hblank : Text.Blank [' '] := by decide
  rw [hclauses, ← List.singleton_append]
  exact clauses_append htail harray hblank hblank htrim hfirst

/-- The interfaces of a type without superclass. -/
theorem Solid.clauses_none (h : u.Solid) (hsuper : u.superclass = none) :
    superclassIn u.kind (tail ++ (u.clausesText ++ [' '])) = none ∧
      superInterfacesIn u.kind (tail ++ (u.clausesText ++ [' '])) = u.interfaceNames := by
  have hstart : u.clausesText = u.interfacesText := by
    rw [clausesText, superclassText, hsuper]
    rfl
  rw [superclassIn, superInterfacesIn]
  by_cases hne : u.superInterfaces = []
  · rw [clauses_of_none htail harray (by rw [hstart, interfacesText, if_pos hne]),
      interfaceNames, hne]
    cases u.kind <;> decide
  · have hnames := h.areWritten hne
    cases hkind : u.kind with
    | «class» =>
      rw [clauses_of_word htail harray hnames ⟨'i', "mplements".toList, rfl, by decide, by decide⟩
        (by rw [hstart, interfacesText_class hkind hne]; rfl)]
      rw [show 'i' :: "mplements".toList = "implements".toList from rfl,
        hnames.clausesOf_implements]
      exact ⟨rfl, rfl⟩
    | interface =>
      rw [clauses_of_word htail harray hnames ⟨'e', "xtends".toList, rfl, by decide, by decide⟩
        (by rw [hstart, interfacesText_interface hkind hne]; rfl)]
      rw [show 'e' :: "xtends".toList = "extends".toList from rfl, hnames.clausesOf_extends]
      exact ⟨rfl, rfl⟩

/-- The header of a class that extends another one and implements
interfaces. -/
theorem Solid.clauses_both (h : u.Solid) (ht : t ∈ u.superclass) (hne : u.superInterfaces ≠ []) :
    clauses (tail ++ (u.clausesText ++ [' '])) = clausesOf ("extends".toList ++ ' ' ::
      (t.shortName.toList ++
        ' ' :: ("implements".toList ++ ' ' :: writtenList u.interfaceNames))) := by
  have hcut : "extends".toList ++ ' ' ::
      (t.shortName.toList ++ ' ' :: ("implements".toList ++ ' ' :: writtenList u.interfaceNames))
      = ("extends".toList ++ ' ' :: (t.shortName.toList ++ ' ' :: "implements".toList)) ++
          ' ' :: writtenList u.interfaceNames := by
    simp
  rw [hcut]
  refine clauses_of_word htail harray (h.areWritten hne) ⟨'e', _, rfl, by decide, by decide⟩ ?_
  rw [clausesText, superclassText_of_mem ht, interfacesText_class (h.kind_of_superclass ht) hne]
  simp

/-- **The superclass and the interfaces are read as they were written**, if no
superclass in front of interfaces ends with the word between them. -/
theorem Solid.clauses_eq (h : u.Solid)
    (hlegible : u.superInterfaces ≠ [] → ∀ t ∈ u.superclass,
      ¬ "implements".toList <:+ t.shortName.toList) :
    superclassIn u.kind (tail ++ (u.clausesText ++ [' '])) = u.superclass.map (·.shortName) ∧
      superInterfacesIn u.kind (tail ++ (u.clausesText ++ [' '])) = u.interfaceNames := by
  cases hsuper : u.superclass with
  | none => exact h.clauses_none htail harray hsuper
  | some t =>
    have hkind := h.kind_of_superclass hsuper
    rw [superclassIn, superInterfacesIn, if_neg (by simp [hkind]), if_neg (by simp [hkind])]
    by_cases hne : u.superInterfaces = []
    · have hclauses : u.clausesText
          = ' ' :: ("extends".toList ++ ' ' :: writtenList [t.shortName]) := by
        rw [clausesText, superclassText_of_mem hsuper, interfacesText, if_pos hne,
          writtenList_singleton, List.append_nil]
      have hname := h.superclass_areWritten hsuper
      rw [clauses_of_word htail harray hname ⟨'e', "xtends".toList, rfl, by decide, by decide⟩
        hclauses, show 'e' :: "xtends".toList = "extends".toList from rfl,
        hname.clausesOf_extends, interfaceNames, hne]
      exact ⟨rfl, rfl⟩
    · rw [h.clauses_both htail harray hsuper hne,
        (h.areWritten hne).clausesOf_both (h.superclass t hsuper).isItem (hlegible hne t hsuper)]
      exact ⟨rfl, rfl⟩

/-- **A superclass whose name ends with the word that introduces the
interfaces is cut in front of it.** -/
theorem Solid.clauses_cut (h : u.Solid) (ht : t ∈ u.superclass) (hne : u.superInterfaces ≠ [])
    (hcut : t.shortName.toList = front ++ "implements".toList) :
    superclassIn u.kind (tail ++ (u.clausesText ++ [' '])) = (typeList front).head? := by
  have hfront : ∀ c ∈ front, Text.isBlank c = false := fun c hc =>
    (h.superclass t ht).isItem.blank c (hcut ▸ List.mem_append_left _ hc)
  rw [superclassIn, if_neg (by simp [h.kind_of_superclass ht]), h.clauses_both htail harray ht hne,
    hcut, (h.areWritten hne).clausesOf_cut hfront]

end

/-- **Nothing is read behind the brackets of an array.** -/
theorem Legible.readClauses_array (h : u.Legible) (harray : u.IsArray) :
    u.readSuperclass = none ∧ u.readSuperInterfaces = [] := by
  obtain ⟨dimensions, hbrackets⟩ := h.exists_brackets harray
  have hclauses : clauses u.headerText = {} := by
    rw [headerText, hbrackets]
    exact clauses_array dimensions _
  rw [readSuperclass, readSuperInterfaces, hclauses]
  cases u.kind <;> decide

/-- **The superclass and the interfaces are read as they were written.** -/
theorem Legible.readClauses_eq (h : u.Legible) (harray : ¬ u.IsArray)
    (hlegible : u.SuperclassLegible) :
    u.readSuperclass = u.superclass.map (·.shortName) ∧
    u.readSuperInterfaces = u.interfaceNames := by
  obtain ⟨-, -, htail, -⟩ := h.exists_name
  exact h.solid.clauses_eq htail (h.getLast?_ne harray) fun hne t ht => (hlegible t ht).2 hne

/-- **A superclass whose name ends with the word that introduces the
interfaces is cut in front of it.** -/
theorem Legible.readSuperclass_cut (h : u.Legible) (harray : ¬ u.IsArray) (ht : t ∈ u.superclass)
    (hne : u.superInterfaces ≠ []) (hcut : t.shortName.toList = front ++ "implements".toList) :
    u.readSuperclass = (typeList front).head? := by
  obtain ⟨-, -, htail, -⟩ := h.exists_name
  exact h.solid.clauses_cut htail (h.getLast?_ne harray) ht hne hcut

end

end TableMapper.JavaUnit
