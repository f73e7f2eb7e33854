import TableMapper.Proofs.Unit.Clauses
import TableMapper.Proofs.Unit.Imports

/-!
# The heading of a written file

**What is read from the heading of a written file is what it was written
with** (`Declared.ofSource?_render`): the declaration is not found in front
of its keyword, the imports and annotations are those of the unit, and the
clauses stand between the name and the brace.
-/

namespace TableMapper.JavaUnit

open Source

/-- **A unit whose heading can be read back**: names and imports are written
in ASCII, annotations are names with arguments, and no line ends the
documentation comment. -/
structure Legible (u : JavaUnit) : Prop where
  type : IsWritten u.type.shortName.toList
  package : ∀ name ∈ u.type.packageName?, IsDotted name.toList
  superclass : ∀ t ∈ u.superclass, IsWritten t.shortName.toList
  superInterfaces : ∀ t ∈ u.superInterfaces, IsWritten t.shortName.toList
  noSuperclass : u.kind = .interface → u.superclass = none
  imports : ∀ name ∈ u.imports, IsImport name.toList
  annotations : ∀ text ∈ u.annotations, IsAnnotation text
  javadoc : IsJavadoc u.javadoc

/-- A text without blanks, quotes, slashes and `@`. -/
def IsSolidText (cs : List Char) : Prop :=
  ∀ c ∈ cs, Text.isBlank c = false ∧ isInert c = true ∧ c ≠ '@'

instance (cs : List Char) : Decidable (IsSolidText cs) :=
  inferInstanceAs (Decidable (∀ c ∈ cs, _))

/-- A text that can stand in a clause of a header. -/
structure IsClauseItem (cs : List Char) : Prop where
  isItem : Text.IsItem cs
  plain : ∀ c ∈ cs, isInert c = true ∧ c ≠ '\x7b'

/-- **A unit whose heading holds nothing that hides its declaration**, in
whatever script its names are written. -/
structure Solid (u : JavaUnit) : Prop where
  package : ∀ name ∈ u.type.packageName?, IsSolidText name.toList
  superclass : ∀ t ∈ u.superclass, IsClauseItem t.shortName.toList
  superInterfaces : ∀ t ∈ u.superInterfaces, IsClauseItem t.shortName.toList
  noSuperclass : u.kind = .interface → u.superclass = none
  imports : ∀ name ∈ u.imports, IsSolidText name.toList ∨
    ∃ path, IsSolidText path ∧ name.toList = "static ".toList ++ path
  annotations : ∀ text ∈ u.annotations, IsAnnotation text
  javadoc : IsJavadoc u.javadoc

theorem isInert_of_isNamePart {c : Char} (h : isNamePart c = true) : isInert c = true := by
  have hne : ∀ d : Char, isNamePart d = false → c ≠ d := by
    rintro d hd rfl
    exact Bool.noConfusion (hd.symm.trans h)
  simp [isInert, hne '"' (by decide +kernel), hne '\x27' (by decide +kernel),
    hne '/' (by decide +kernel)]

theorem isInert_of_isNameChar {c : Char} (h : isNameChar c = true) : isInert c = true :=
  isInert_of_isNamePart (isNamePart_of_isNameChar h)

theorem isSolidText_of_isDotted {path : List Char} (h : IsDotted path) : IsSolidText path := by
  intro c hc
  rcases h.forall c hc with hchar | rfl
  · exact ⟨isBlank_of_isNameChar hchar, isInert_of_isNameChar hchar,
      ne_of_isNameChar hchar (by decide)⟩
  · decide

theorem isSolidText_of_isPath {path : List Char} (h : IsPath path) : IsSolidText path := by
  obtain ⟨name, hname, rfl | rfl⟩ := h
  · exact isSolidText_of_isDotted hname
  · exact List.forall_mem_append.2 ⟨isSolidText_of_isDotted hname, by decide⟩

theorem isClauseItem_of_isWritten {cs : List Char} (h : IsWritten cs) : IsClauseItem cs where
  isItem := h.isItem
  plain := by
    intro c hc
    rcases h.forall c hc with hchar | rfl | rfl | rfl | rfl
    · exact ⟨isInert_of_isNameChar hchar, ne_of_isNameChar hchar (by decide)⟩
    all_goals decide

/-- What can be read back hides nothing. -/
theorem Legible.solid {u : JavaUnit} (h : u.Legible) : u.Solid where
  package := fun name hname => isSolidText_of_isDotted (h.package name hname)
  superclass := fun t ht => isClauseItem_of_isWritten (h.superclass t ht)
  superInterfaces := fun t ht => isClauseItem_of_isWritten (h.superInterfaces t ht)
  noSuperclass := h.noSuperclass
  imports := fun name hname => (h.imports name hname).imp isSolidText_of_isPath
    fun ⟨path, hpath, hname⟩ => ⟨path, isSolidText_of_isPath hpath, hname⟩
  annotations := h.annotations
  javadoc := h.javadoc

section

variable {u : JavaUnit}

/-! ## The package and the imports -/

/-- The package line and the empty line behind it. -/
def packageLines (u : JavaUnit) : List Char :=
  match u.type.packageName? with
  | some package => "package".toList ++ ' ' :: (package.toList ++ [';']) ++ ['\n', '\n']
  | none => []

/-- The import lines and the empty line behind them. -/
def importsText (u : JavaUnit) : List Char :=
  if u.imports = [] then [] else importLines u.imports ++ ['\n']

theorem toList_join_imports (names : List String) :
    (String.join (names.map fun name => "import " ++ name ++ ";\n")).toList
      = importLines names := by
  induction names with
  | nil => rfl
  | cons name names ih =>
    rw [List.map_cons, String.join_cons, String.toList_append, ih]
    simp [importLines]

theorem toList_renderPrelude (u : JavaUnit) :
    u.renderPrelude.toList = u.packageLines ++ u.importsText := by
  rw [renderPrelude, String.toList_append, packageLines, importsText]
  congr 1
  · cases u.type.packageName? <;> simp
  · by_cases h : u.imports = []
    · simp [h]
    · rw [if_neg h, if_neg (by simpa using h), String.toList_append, toList_join_imports]
      rfl

theorem Solid.packageLines_plain (h : u.Solid) :
    ∀ c ∈ u.packageLines, isInert c = true ∧ c ≠ '@' := by
  unfold packageLines
  cases hpackage : u.type.packageName? with
  | none => exact fun c hc => absurd hc List.not_mem_nil
  | some package =>
    intro c hc
    simp only [List.mem_append, List.mem_cons, List.not_mem_nil, or_false] at hc
    rcases hc with (hc | rfl | hc | rfl) | rfl | rfl
    · exact (by decide : ∀ c ∈ "package".toList, isInert c = true ∧ c ≠ '@') c hc
    · decide
    · exact (h.package package hpackage c hc).2
    all_goals decide

theorem Solid.importsText_plain (h : u.Solid) :
    ∀ c ∈ u.importsText, isInert c = true ∧ c ≠ '@' := by
  unfold importsText
  split
  · exact fun c hc => absurd hc List.not_mem_nil
  · intro c hc
    rcases List.mem_append.1 hc with hc | hc
    · obtain ⟨name, hname, hc⟩ := List.mem_flatMap.1 hc
      simp only [List.mem_append, List.mem_cons, List.not_mem_nil, or_false] at hc
      rcases hc with (hc | rfl | hc | rfl) | rfl
      · exact (by decide : ∀ c ∈ "import".toList, isInert c = true ∧ c ≠ '@') c hc
      · decide
      · rcases h.imports name hname with hsolid | ⟨path, hpath, heq⟩
        · exact (hsolid c hc).2
        · rw [heq] at hc
          rcases List.mem_append.1 hc with hc | hc
          · exact (by decide : ∀ c ∈ "static ".toList, isInert c = true ∧ c ≠ '@') c hc
          · exact (hpath c hc).2
      all_goals decide
    · rw [List.mem_singleton.1 hc]
      decide

/-! ## No declaration in front of the keyword -/

theorem not_suffix_semicolon (cs : List Char) (kind : DeclaredKind) :
    ¬ kind.keyword.toList <:+ cs ++ [';'] := by
  rintro ⟨front, hfront⟩
  have hmem : ';' ∈ kind.keyword.toList := by
    have hlast := congrArg List.getLast? hfront
    rw [List.getLast?_concat, List.getLast?_append_of_ne_nil _ (keyword_ne_nil kind)] at hlast
    exact List.mem_of_getLast? hlast
  exact not_mem_keyword (by decide) (by decide) kind hmem

/-- A word with a semicolon behind it, and the end of the line. -/
theorem idle_semicolon {cs : List Char} (h : ∀ c ∈ cs, Text.isBlank c = false) :
    Idle ((cs ++ [';'] ++ ['\n']).map shown) := by
  refine idle_word ?_ (by decide) (not_suffix_semicolon cs)
  intro c hc
  rcases List.mem_append.1 hc with hc | hc
  · exact h c hc
  · rw [List.mem_singleton.1 hc]
    decide

theorem Solid.idle_packageLines (h : u.Solid) : Idle (u.packageLines.map shown) := by
  unfold packageLines
  cases hpackage : u.type.packageName? with
  | none => exact idle_nil
  | some package =>
    have hword : Idle (("package".toList ++ [' ']).map shown) :=
      idle_certain (by decide) (by decide)
    have hname := idle_semicolon fun c hc => (h.package package hpackage c hc).1
    have hline : Idle (['\n'].map shown) := idle_blank (by decide)
    have hcut : ("package".toList ++ ' ' :: (package.toList ++ [';']) ++ ['\n', '\n']).map shown
        = ("package".toList ++ [' ']).map shown ++
            ((package.toList ++ [';'] ++ ['\n']).map shown ++ ['\n'].map shown) := by
      simp
    show Idle (("package".toList ++ ' ' :: (package.toList ++ [';']) ++ ['\n', '\n']).map shown)
    rw [hcut]
    exact hword.append (hname.append hline)

theorem idle_import {name : List Char}
    (h : IsSolidText name ∨ ∃ path, IsSolidText path ∧ name = "static ".toList ++ path) :
    Idle (("import".toList ++ ' ' :: (name ++ [';']) ++ ['\n']).map shown) := by
  have hword : Idle (("import".toList ++ [' ']).map shown) := idle_certain (by decide) (by decide)
  rcases h with hpath | ⟨path, hpath, rfl⟩
  · have hcut : "import".toList ++ ' ' :: (name ++ [';']) ++ ['\n']
        = ("import".toList ++ [' ']) ++ (name ++ [';'] ++ ['\n']) := by
      simp
    rw [hcut, List.map_append]
    exact hword.append (idle_semicolon fun c hc => (hpath c hc).1)
  · have hstatic : Idle (("static".toList ++ [' ']).map shown) := by
      refine idle_word (by decide) (by decide) ?_
      intro kind
      cases kind <;> decide
    have hcut : "import".toList ++ ' ' :: ("static ".toList ++ path ++ [';']) ++ ['\n']
        = ("import".toList ++ [' ']) ++
        (("static".toList ++ [' ']) ++ (path ++ [';'] ++ ['\n'])) := by
      simp
    rw [hcut, List.map_append, List.map_append]
    exact hword.append (hstatic.append (idle_semicolon fun c hc => (hpath c hc).1))

theorem idle_importLines {names : List String} (h : ∀ name ∈ names, IsSolidText name.toList ∨
      ∃ path, IsSolidText path ∧ name.toList = "static ".toList ++ path) :
    Idle ((importLines names).map shown) := by
  induction names with
  | nil => exact idle_nil
  | cons name names ih =>
    rw [importLines, List.flatMap_cons, List.map_append]
    exact (idle_import (h name List.mem_cons_self)).append
      (ih fun other hother => h other (List.mem_cons_of_mem name hother))

theorem Solid.idle_importsText (h : u.Solid) : Idle (u.importsText.map shown) := by
  unfold importsText
  split
  · exact idle_nil
  · rw [List.map_append]
    exact (idle_importLines h.imports).append (idle_blank (by decide))

theorem idle_visibility (v : Visibility) : Idle (v.keyword.toList.map shown) := by
  cases v with
  | package => exact idle_nil
  | «public» => exact idle_certain (show ∀ c ∈ "public".toList, _ by decide) (by decide)
  | «protected» => exact idle_certain (show ∀ c ∈ "protected".toList, _ by decide) (by decide)
  | «private» => exact idle_certain (show ∀ c ∈ "private".toList, _ by decide) (by decide)

/-! ## The header -/

/-- The superclass in a header, with a blank in front of it. -/
def superclassText (u : JavaUnit) : List Char :=
  match u.superclass with
  | some t => ' ' :: ("extends".toList ++ ' ' :: t.shortName.toList)
  | none => []

/-- The names of the interfaces, as they are written. -/
def interfaceNames (u : JavaUnit) : List String :=
  u.superInterfaces.map (·.shortName)

/-- The interfaces in a header, with a blank in front of them. -/
def interfacesText (u : JavaUnit) : List Char :=
  if u.superInterfaces = [] then []
  else
    match u.kind with
    | .class => ' ' :: ("implements".toList ++ ' ' :: writtenList u.interfaceNames)
    | .interface => ' ' :: ("extends".toList ++ ' ' :: writtenList u.interfaceNames)

/-- The clauses of a header. -/
def clausesText (u : JavaUnit) : List Char :=
  u.superclassText ++ u.interfacesText

/-- What stands between the identifier of the type and the brace. -/
def headerText (u : JavaUnit) : List Char :=
  u.type.shortName.toList.dropWhile isNameChar ++ (u.clausesText ++ [' '])

/-- What follows the brace. -/
def bodyText (u : JavaUnit) : List Char :=
  ['\n'] ++ (("\n".intercalate u.memberTexts).toList ++ '\x7d' :: ['\n'])

theorem isNameChar_tail {tail : List Char} (h : IsNameTail tail) :
    ∀ c ∈ tail.head?, isNameChar c = false := by
  cases h with
  | array dimensions =>
    cases dimensions with
    | zero => simp [brackets]
    | succ dimensions =>
      rintro c ⟨⟩
      decide
  | argument hname dimensions =>
    rintro c ⟨⟩
    decide

/-- The identifier and what follows it in the short name of the type. -/
theorem Legible.exists_name (h : u.Legible) :
    ∃ name, IsIdentifier name ∧ IsNameTail (u.type.shortName.toList.dropWhile isNameChar) ∧
      u.type.shortName.toList = name ++ u.type.shortName.toList.dropWhile isNameChar := by
  obtain ⟨name, tail, hshort, hname, htail⟩ := h.type
  have hdrop : u.type.shortName.toList.dropWhile isNameChar = tail := by
    rw [hshort, List.dropWhile_append_of_pos hname.isNameChar]
    cases tail with
    | nil => rfl
    | cons c tail => rw [List.dropWhile_cons_of_neg (by simp [isNameChar_tail htail c rfl])]
  rw [hdrop]
  exact ⟨name, hname, htail, hshort⟩

theorem toList_renderHeader (u : JavaUnit) : u.renderHeader.toList
    = u.visibility.keyword.toList ++ (u.kind.keyword.toList ++ ' ' :: (u.type.shortName.toList ++
        (u.clausesText ++ ' ' :: '\x7b' :: ['\n']))) := by
  have hlist : (", ".intercalate (u.superInterfaces.map (·.shortName))).toList
      = writtenList u.interfaceNames := by
    rw [String.toList_intercalate]
    rfl
  rw [renderHeader, clausesText, superclassText, interfacesText]
  cases u.superclass <;> by_cases hinterfaces : u.superInterfaces = [] <;> cases u.kind <;>
    simp [hinterfaces, hlist]

theorem Solid.clausesText_plain (h : u.Solid) :
    ∀ c ∈ u.clausesText, isInert c = true ∧ c ≠ '\x7b' := by
  have hlist : ∀ c ∈ writtenList u.interfaceNames, isInert c = true ∧ c ≠ '\x7b' := by
    refine forall_writtenList (fun name hname => ?_) (by decide) (by decide)
    obtain ⟨t, ht, rfl⟩ := List.mem_map.1 hname
    exact (h.superInterfaces t ht).plain
  -- a clause is a word with what it introduces
  have hclause : ∀ {word cs : List Char}, (∀ c ∈ word, isInert c = true ∧ c ≠ '\x7b') →
      (∀ c ∈ cs, isInert c = true ∧ c ≠ '\x7b') → ∀ c ∈ ' ' :: (word ++ ' ' :: cs),
      isInert c = true ∧ c ≠ '\x7b' := by
    intro word cs hword hcs c hc
    simp only [List.mem_cons, List.mem_append] at hc
    rcases hc with rfl | hc | rfl | hc
    · decide
    · exact hword c hc
    · decide
    · exact hcs c hc
  have hextends : ∀ c ∈ "extends".toList, isInert c = true ∧ c ≠ '\x7b' := by decide
  have himplements : ∀ c ∈ "implements".toList, isInert c = true ∧ c ≠ '\x7b' := by decide
  intro c hc
  rcases List.mem_append.1 hc with hc | hc
  · unfold superclassText at hc
    cases hsuper : u.superclass with
    | none =>
      rw [hsuper] at hc
      exact absurd hc List.not_mem_nil
    | some t =>
      rw [hsuper] at hc
      exact hclause hextends (h.superclass t hsuper).plain c hc
  · unfold interfacesText at hc
    split at hc
    · exact absurd hc List.not_mem_nil
    · cases hkind : u.kind with
      | «class» =>
        rw [hkind] at hc
        exact hclause himplements hlist c hc
      | interface =>
        rw [hkind] at hc
        exact hclause hextends hlist c hc

theorem Legible.headerText_plain (h : u.Legible) :
    ∀ c ∈ u.headerText, isInert c = true ∧ c ≠ '\x7b' := by
  intro c hc
  rcases List.mem_append.1 hc with hc | hc
  · exact (isClauseItem_of_isWritten h.type).plain c ((List.dropWhile_suffix _).subset hc)
  · rcases List.mem_append.1 hc with hc | hc
    · exact h.solid.clausesText_plain c hc
    · rw [List.mem_singleton.1 hc]
      decide

/-! ## The file, marked -/

/-- What stands between the imports and the keyword of the declaration. -/
def headSource (u : JavaUnit) : Source :=
  markFrom .code (renderJavadoc "" u.javadoc).toList ++
    (annotationLines u.annotations ++ u.visibility.keyword.toList.map shown)

/-- What stands in front of the keyword of the declaration. -/
def preludeSource (u : JavaUnit) : Source :=
  u.renderPrelude.toList.map shown ++ u.headSource

theorem Solid.silent_javadoc (h : u.Solid) : Silent (renderJavadoc "" u.javadoc).toList :=
  Source.silent_javadoc (show ∀ c ∈ "".toList, Text.isBlank c = true by decide) h.javadoc

theorem Solid.renderPrelude_plain (h : u.Solid) :
    ∀ c ∈ u.renderPrelude.toList, isInert c = true ∧ c ≠ '@' := by
  rw [toList_renderPrelude]
  intro c hc
  rcases List.mem_append.1 hc with hc | hc
  · exact h.packageLines_plain c hc
  · exact h.importsText_plain c hc

theorem isInert_keyword (v : Visibility) : ∀ c ∈ v.keyword.toList, isInert c = true := by
  cases v <;> decide

/-- **A written file is marked part by part**, wherever the name of the type
is cut. -/
theorem Solid.ofText_render (h : u.Solid) {name tail : List Char} (hname : IsDeclarable name)
    (htail : ∀ c ∈ tail, isInert c = true) (hshort : u.type.shortName.toList = name ++ tail) :
    ofText u.render = u.preludeSource ++ ((u.kind.keyword.toList ++ ' ' :: name).map shown ++
      ((tail ++ (u.clausesText ++ [' '])).map shown ++ shown '\x7b' ::
        markFrom .code u.bodyText)) := by
  have htext : u.render.toList = u.renderPrelude.toList ++ ((renderJavadoc "" u.javadoc).toList ++
      ((renderAnnotations "" u.annotations).toList ++ (u.visibility.keyword.toList ++
        ((u.kind.keyword.toList ++ ' ' :: name) ++
          ((tail ++ (u.clausesText ++ [' '])) ++ '\x7b' :: u.bodyText))))) := by
    rw [render]
    simp only [String.toList_append, toList_renderHeader]
    rw [hshort]
    simp [bodyText]
  have hkeyword : ∀ c ∈ u.kind.keyword.toList ++ ' ' :: name, isInert c = true := by
    intro c hc
    rcases List.mem_append.1 hc with hc | hc
    · cases hkind : u.kind <;> rw [hkind] at hc
      · exact (by decide : ∀ c ∈ TypeKind.class.keyword.toList, isInert c = true) c hc
      · exact (by decide : ∀ c ∈ TypeKind.interface.keyword.toList, isInert c = true) c hc
    · rcases List.mem_cons.1 hc with rfl | hc
      · decide
      · exact isInert_of_isNamePart (hname.isNamePart c hc)
  have hheader : ∀ c ∈ tail ++ (u.clausesText ++ [' ']), isInert c = true :=
    List.forall_mem_append.2 ⟨htail, List.forall_mem_append.2
      ⟨fun c hc => (h.clausesText_plain c hc).1, by decide⟩⟩
  rw [ofText, htext, markFrom_inert fun c hc => (h.renderPrelude_plain c hc).1,
    h.silent_javadoc.settled, markFrom_renderAnnotations h.annotations,
    markFrom_inert (isInert_keyword u.visibility), markFrom_inert hkeyword, markFrom_inert hheader,
    markFrom_inert_cons (by decide), preludeSource, headSource]
  simp only [List.append_assoc]

/-! ## The end of the prelude -/

/-- A part of a file that ends with a blank, if it has any characters. -/
def EndsBlank (part : Source) : Prop :=
  ∀ c ∈ part.getLast?, Text.isBlank c.code = true

theorem EndsBlank.append {part more : Source} (h : EndsBlank part) (hmore : EndsBlank more) :
    EndsBlank (part ++ more) := by
  intro c hc
  rw [List.getLast?_append] at hc
  cases hlast : more.getLast? with
  | none =>
    rw [hlast] at hc
    exact h c hc
  | some d =>
    rw [hlast] at hc
    obtain rfl : d = c := by simpa using hc
    exact hmore d hlast

theorem endsBlank_concat (cs : List Char) {c : Char} (hc : Text.isBlank c = true) :
    EndsBlank ((cs ++ [c]).map shown) := by
  rw [List.map_append]
  intro d hd
  obtain rfl : shown c = d := by simpa using hd
  exact hc

theorem endsBlank_packageLines (u : JavaUnit) : EndsBlank (u.packageLines.map shown) := by
  unfold packageLines
  cases u.type.packageName? with
  | none => exact fun c hc => absurd hc (by simp)
  | some package =>
    have hcut : "package".toList ++ ' ' :: (package.toList ++ [';']) ++ ['\n', '\n']
        = ("package".toList ++ ' ' :: (package.toList ++ [';']) ++ ['\n']) ++ ['\n'] := by
      simp
    show EndsBlank
        (("package".toList ++ ' ' :: (package.toList ++ [';']) ++ ['\n', '\n']).map shown)
    rw [hcut]
    exact endsBlank_concat _ (by decide)

theorem endsBlank_importsText (u : JavaUnit) : EndsBlank (u.importsText.map shown) := by
  unfold importsText
  split
  · exact fun c hc => absurd hc (by simp)
  · exact endsBlank_concat _ (by decide)

theorem endsBlank_annotationLines (annotations : List String) :
    EndsBlank (annotationLines annotations) := by
  induction annotations with
  | nil => exact fun c hc => absurd hc (by simp [annotationLines])
  | cons text annotations ih =>
    rw [annotationLines, List.flatMap_cons]
    refine EndsBlank.append ?_ ih
    intro c hc
    obtain rfl : shown '\n' = c := by simpa using hc
    decide

theorem endsBlank_visibility (v : Visibility) : EndsBlank (v.keyword.toList.map shown) := by
  cases v with
  | package => exact fun c hc => absurd hc (Option.not_mem_none c)
  | «public» => exact endsBlank_concat "public".toList (by decide)
  | «protected» => exact endsBlank_concat "protected".toList (by decide)
  | «private» => exact endsBlank_concat "private".toList (by decide)

theorem Solid.endsBlank_preludeSource (h : u.Solid) : EndsBlank u.preludeSource := by
  have hprelude : EndsBlank (u.renderPrelude.toList.map shown) := by
    rw [toList_renderPrelude, List.map_append]
    exact (endsBlank_packageLines u).append (endsBlank_importsText u)
  exact hprelude.append
    (EndsBlank.append (fun c hc => h.silent_javadoc.blank c (List.mem_of_getLast? hc))
    ((endsBlank_annotationLines u.annotations).append (endsBlank_visibility u.visibility)))

/-- **No declaration is found in the prelude.** -/
theorem Solid.idle_preludeSource (h : u.Solid) : Idle u.preludeSource := by
  have hprelude : Idle (u.renderPrelude.toList.map shown) := by
    rw [toList_renderPrelude, List.map_append]
    exact h.idle_packageLines.append h.idle_importsText
  exact hprelude.append ((idle_blank h.silent_javadoc.blank).append
    ((idle_annotations h.annotations).append (idle_visibility u.visibility)))

end

end TableMapper.JavaUnit
