import Mathlib.Data.List.Infix
import TableMapper.Proofs.Text.Items
import TableMapper.Proofs.Text.Occurrences
import TableMapper.Proofs.Unit.Imports

/-!
# The package and the imports of an existing file

In front of the type stand the package and the imports, one declaration behind
the other and in any layout (`Prologue`). They say which class a name in the
file denotes (`Denotes`). An import is looked for at the beginning of a line,
and its name is read up to the semicolon if it has nothing but letters, digits
and dots, with a star behind the last dot. So **the imports that are read are
those that begin on a line of their own and have such a name**
(`Prologue.importsFrom`); one behind another on its line, or one of a class with
a dollar sign, is not.
-/

namespace TableMapper.Source

/-! ## Declarations in front of a type -/

/-- An import, from what separates it from the declaration in front of it to
its semicolon. -/
structure ImportClause where
  lead : List Char
  /-- What stands behind the word `import`. -/
  gap : List Char
  /-- What stands behind the word `static`, if the import has it. -/
  staticGap : Option (List Char) := none
  path : List Char
  /-- What stands in front of the semicolon. -/
  behind : List Char := []

/-- The package, from the beginning of the file to the semicolon. -/
structure PackageClause where
  lead : List Char
  gap : List Char
  path : List Char
  behind : List Char := []

/-- **The package and the imports.** -/
structure Prologue where
  package : Option PackageClause := none
  imports : List ImportClause := []

/-- A name without the blanks in it. -/
def pathName (path : List Char) : List Char :=
  path.filter (!Text.isBlank ·)

/-- No word in front of a blank ends with one that introduces an import. -/
def Unreserved (cs : List Char) : Prop :=
  ∀ word ∈ ["import", "static"], ∀ blank, Text.isBlank blank = true →
    ¬ word.toList ++ [blank] <:+: cs

theorem unreserved_of_not_isInfix {cs : List Char}
    (h : ∀ word ∈ ["import", "static"], ¬ word.toList <:+: cs) :
    Unreserved cs :=
  fun word hword _ _ hpart =>
    h word hword (List.IsInfix.trans (List.prefix_append _ _).isInfix hpart)

/-- The name of an import that can be read: letters, digits and dots, with a
star behind the last dot. -/
def IsReadablePath (path : List Char) : Prop :=
  (∀ c ∈ path, isPathChar c = true) ∨
    path.getLast? = some '*' ∧ path.dropLast.getLast? = some '.' ∧ path.dropLast.dropLast ≠ [] ∧
      ∀ c ∈ path.dropLast, isPathChar c = true

instance (path : List Char) : Decidable (IsReadablePath path) :=
  inferInstanceAs (Decidable (_ ∨ _))

namespace ImportClause

/-- What stands behind the first letter of the import, up to its semicolon. -/
def tail (c : ImportClause) : List Char :=
  "mport".toList ++ (c.gap ++ (c.staticGap.elim [] ("static".toList ++ ·) ++ (c.path ++ c.behind)))

def code (c : ImportClause) : List Char :=
  c.lead ++ 'i' :: (c.tail ++ [';'])

/-- The name of the import, with the word `static` if it has it. -/
def name (c : ImportClause) : String :=
  (if c.staticGap.isSome then "static " else "") ++ String.ofList (pathName c.path)

structure IsImport (c : ImportClause) : Prop where
  lead : Text.Blank c.lead
  gap : Text.Blank c.gap
  gap_ne_nil : c.gap ≠ []
  staticGap : ∀ gap ∈ c.staticGap, Text.Blank gap ∧ gap ≠ []
  path_ne_nil : c.path ≠ []
  path_trim : Text.trim c.path = c.path
  semicolon : ';' ∉ c.path
  behind : Text.Blank c.behind
  unreserved : Unreserved (c.path ++ c.behind)

end ImportClause

namespace PackageClause

def code (c : PackageClause) : List Char :=
  c.lead ++ ("package".toList ++ (c.gap ++ (c.path ++ c.behind))) ++ [';']

structure IsPackage (c : PackageClause) : Prop where
  lead : Text.Blank c.lead
  gap : Text.Blank c.gap
  path_ne_nil : c.path ≠ []
  unreserved : Unreserved (c.path ++ c.behind)

end PackageClause

namespace Prologue

def code (p : Prologue) : List Char :=
  p.package.elim [] (·.code) ++ p.imports.flatMap (·.code)

structure IsPrologue (p : Prologue) : Prop where
  package : ∀ c ∈ p.package, c.IsPackage
  imports : ∀ c ∈ p.imports, c.IsImport

/-- The imports that are read from a place on, with whether a line begins
there. -/
def readFrom (lineStart : Bool) : List ImportClause → List ImportClause
  | [] => []
  | c :: rest =>
    if (lineStart = true ∨ '\n' ∈ c.lead) ∧ IsReadablePath c.path then c :: readFrom false rest
    else readFrom false rest

/-- **The imports that are read**: those that begin on a line of their own and
have a name that can be read. -/
def read (p : Prologue) : List ImportClause :=
  readFrom p.package.isNone p.imports

/-- The names that are imported. -/
def paths (p : Prologue) : List (List Char) :=
  p.imports.map fun c => pathName c.path

/-- A name in the package of the file. -/
def inPackage (p : Prologue) (name : List Char) : List Char :=
  p.package.elim name fun c => pathName c.path ++ '.' :: name

/-- **What a name can denote** in a file with the package and the imports. What
is imported by the very name decides. Without such an import it is a class of the
package, of a package that is imported as a whole, or of `java.lang`. A name with
dots is a qualified one, or the member of a type. -/
inductive Denotes (p : Prologue) : List Char → List Char → Prop
  | imported {name front : List Char} : '.' ∉ name → front ++ '.' :: name ∈ p.paths →
      p.Denotes name (front ++ '.' :: name)
  | own {name : List Char} : '.' ∉ name → (∀ front, front ++ '.' :: name ∉ p.paths) →
      p.Denotes name (p.inPackage name)
  | onDemand {name front : List Char} : '.' ∉ name → (∀ other, other ++ '.' :: name ∉ p.paths) →
      front ++ ".*".toList ∈ "java.lang.*".toList :: p.paths → p.Denotes name (front ++ '.' :: name)
  | qualified {name : List Char} : '.' ∈ name → p.Denotes name name
  | member {name full member : List Char} : '.' ∉ member → p.Denotes name full →
      p.Denotes (name ++ '.' :: member) (full ++ '.' :: member)

end Prologue

section

variable {cs ds rest blanks : List Char} {source part behind : Source}
  {c : ImportClause} {p : Prologue}

/-! ## Where no import begins -/

/-- No import begins with this text. -/
def NoImport (cs : List Char) : Prop :=
  ∀ blank behind, Text.isBlank blank = true → Text.trimStart cs ≠ "import".toList ++ blank :: behind

/-- In no place of a part does an import begin. -/
def Barren (cs rest : List Char) : Prop :=
  ∀ back, back ≠ [] → back <:+ cs → NoImport (back ++ rest)

theorem Barren.append (h : Barren cs (ds ++ rest)) (hds : Barren ds rest) :
    Barren (cs ++ ds) rest := by
  rintro back hne ⟨front, hfront⟩
  rcases List.append_eq_append_iff.1 hfront with ⟨between, rfl, rfl⟩ | ⟨between, rfl, rfl⟩
  · cases between with
    | nil =>
      cases ds with
      | nil => exact absurd rfl hne
      | cons d ds => exact hds _ (List.cons_ne_nil _ _) ⟨[], rfl⟩
    | cons e between =>
      rw [List.append_assoc]
      exact h _ (List.cons_ne_nil _ _) ⟨front, rfl⟩
  · exact hds back hne ⟨between, rfl⟩

/-- A certain word that shares no part with the one of an import. -/
theorem barren_word (hblank : ∀ c ∈ cs, Text.isBlank c = false)
    (hword : ∀ back ∈ cs.tails, back = [] ∨ ¬ back <+: "import".toList ∧ ¬ "import".toList <+: back)
    (rest : List Char) :
    Barren cs rest := by
  intro back hne hback blank behind _ hstart
  obtain ⟨c, back, rfl⟩ := List.exists_cons_of_ne_nil hne
  rw [List.cons_append, Text.trimStart_cons (hblank c (hback.subset List.mem_cons_self)),
    ← List.cons_append] at hstart
  have hnot := (hword _ ((List.mem_tails _ _).2 hback)).resolve_left hne
  rcases List.prefix_or_prefix_of_prefix (List.prefix_append (c :: back) rest)
    ⟨blank :: behind, hstart.symm⟩ with h | h
  · exact hnot.1 h
  · exact hnot.2 h

theorem barren_blanks (hblanks : Text.Blank blanks) (h : NoImport rest) : Barren blanks rest := by
  intro back _ hback blank behind hblank hstart
  rw [Text.trimStart_blanks_append fun c hc => hblanks c (hback.subset hc)] at hstart
  exact h blank behind hblank hstart

theorem semicolon_not_mem_word {word : List Char} {blank : Char} (hword : ';' ∉ word)
    (hblank : Text.isBlank blank = true) : ';' ∉ word ++ [blank] := by
  intro hmem
  rcases List.mem_append.1 hmem with hmem | hmem
  · exact hword hmem
  · rw [← List.mem_singleton.1 hmem] at hblank
    exact absurd hblank (by decide)

/-- The name of an import, and the blanks behind it. -/
theorem barren_of_unreserved (h : Unreserved cs) (rest : List Char) : Barren cs (';' :: rest) := by
  intro back _ hback blank behind hblank hstart
  have hsemicolon : ';' ∉ "import".toList ++ [blank] := semicolon_not_mem_word (by decide) hblank
  -- what the word and the blank stand in front of begins behind the semicolon
  have hbegins : "import".toList ++ [blank] <+: Text.trimStart back := by
    refine Text.prefix_of_not_mem hsemicolon
      (show _ <+: Text.trimStart back ++ ';' :: rest from ⟨behind, ?_⟩)
    rw [List.append_assoc, List.singleton_append, ← hstart]
    by_cases hnil : Text.trimStart back = []
    · have hblanks : Text.Blank back := List.dropWhile_eq_nil_iff.1 hnil
      rw [Text.trimStart_blanks_append hblanks, hnil]
      exact Text.trimStart_cons (by decide) rest
    · rw [Text.trimStart, Text.trimStart, List.dropWhile_append]
      exact if_neg fun hempty => hnil (List.isEmpty_iff.1 hempty)
  refine h "import" (by decide) blank hblank ?_
  exact hbegins.isInfix.trans ((List.dropWhile_suffix Text.isBlank).trans hback).isInfix

theorem Barren.noImport (h : Barren cs rest) (hne : cs ≠ []) : NoImport (cs ++ rest) :=
  h cs hne List.suffix_rfl

/-- In a name with its semicolon no import begins, nor in the blanks in front
of it. -/
theorem barren_path {path behind : List Char} (h : Unreserved (path ++ behind)) (hne : path ≠ [])
    (rest : List Char) :
    Barren ((path ++ behind) ++ [';']) rest ∧ NoImport ((path ++ behind) ++ [';'] ++ rest) := by
  have hpath := barren_of_unreserved h rest
  refine ⟨Barren.append hpath (barren_word (by decide) (by decide) rest), ?_⟩
  rw [List.append_assoc]
  exact hpath.noImport (by simp [hne])

/-- **In an import no other one begins.** -/
theorem ImportClause.IsImport.barren_tail (hc : c.IsImport) (rest : List Char) :
    Barren (c.tail ++ [';']) rest := by
  obtain ⟨hend, hstart⟩ := barren_path hc.unreserved hc.path_ne_nil rest
  have hstatic : Barren
      (c.staticGap.elim [] ("static".toList ++ ·) ++ ((c.path ++ c.behind) ++ [';'])) rest ∧
      NoImport (c.staticGap.elim [] ("static".toList ++ ·) ++
        ((c.path ++ c.behind) ++ [';']) ++ rest) := by
    cases hgap : c.staticGap with
    | none => exact ⟨hend, hstart⟩
    | some gap =>
      have hword : Barren ("static".toList ++ (gap ++ ((c.path ++ c.behind) ++ [';']))) rest :=
        Barren.append (barren_word (by decide) (by decide) _)
          (Barren.append (barren_blanks (hc.staticGap gap hgap).1 hstart) hend)
      rw [Option.elim_some, List.append_assoc]
      exact ⟨hword, hword.noImport (by simp)⟩
  have htail : c.tail ++ [';'] = "mport".toList ++ (c.gap ++
      (c.staticGap.elim [] ("static".toList ++ ·) ++ ((c.path ++ c.behind) ++ [';']))) := by
    simp [tail]
  rw [htail]
  exact Barren.append (barren_word (by decide) (by decide) _)
    (Barren.append (barren_blanks hc.gap hstatic.2) hstatic.1)

/-- **In a package no import begins.** -/
theorem PackageClause.IsPackage.barren {c : PackageClause} (hc : c.IsPackage) (rest : List Char) :
    Barren c.code rest := by
  obtain ⟨hend, hstart⟩ := barren_path hc.unreserved hc.path_ne_nil rest
  have hword : Barren ("package".toList ++ (c.gap ++ ((c.path ++ c.behind) ++ [';']))) rest :=
    Barren.append (barren_word (by decide) (by decide) _)
      (Barren.append (barren_blanks hc.gap hstart) hend)
  have hcode : c.code = c.lead ++
      ("package".toList ++ (c.gap ++ ((c.path ++ c.behind) ++ [';']))) := by
    simp [code]
  rw [hcode]
  exact Barren.append (barren_blanks hc.lead (hword.noImport (by simp))) hword

end

section

variable {source part rest behind : Source} {c : ImportClause} {p : Prologue}

/-! ## Reading one import -/

theorem codes_skipBlanks (source : Source) :
    codes (skipBlanks source) = Text.trimStart (codes source) := by
  rw [codes, codes, Text.trimStart, List.dropWhile_map]
  rfl

/-- What follows a word and blanks. -/
theorem exists_of_behindWord {word : List Char}
    (h : (behindWord word source).bind behindBlanks = some behind) :
    ∃ blank more, codes source = word ++ blank :: more ∧ Text.isBlank blank = true := by
  obtain ⟨rest, hword, hblanks⟩ := Option.bind_eq_some_iff.1 h
  unfold behindWord at hword
  split at hword
  next hbegins =>
    obtain ⟨more, hmore⟩ := List.isPrefixOf_iff_prefix.1 hbegins
    have hcodes : codes rest = more := by
      rw [← Option.some.inj hword, codes, List.map_drop]
      show (codes source).drop _ = more
      rw [← hmore, List.drop_left]
    cases rest with
    | nil => exact absurd hblanks (by simp [behindBlanks])
    | cons c rest =>
      rw [behindBlanks] at hblanks
      split at hblanks
      next hblank => exact ⟨c.code, codes rest, by rw [← hmore, ← hcodes]; rfl, hblank⟩
      · exact absurd hblanks (by simp)
  · exact absurd hword (by simp)

theorem importAt_eq_none (h : NoImport (codes source)) : importAt source = none := by
  have hnone : (behindWord "import".toList (skipBlanks source)).bind behindBlanks = none := by
    rw [Option.eq_none_iff_forall_ne_some]
    intro rest hrest
    obtain ⟨blank, more, hcodes, hblank⟩ := exists_of_behindWord hrest
    rw [codes_skipBlanks] at hcodes
    exact h blank more hblank hcodes
  unfold importAt
  rw [hnone]
  rfl

/-- What stands behind a word and the blanks behind it. -/
theorem behindWord_bind {word blanks : Source} {cs : List Char} (hword : codes word = cs)
    (hblanks : Text.Blank (codes blanks)) (hne : blanks ≠ [])
    (hrest : ∀ c ∈ rest.head?, Text.isBlank c.code = false) :
    (behindWord cs (word ++ (blanks ++ rest))).bind behindBlanks = some rest := by
  have hbegins : cs.isPrefixOf (codes (word ++ (blanks ++ rest))) = true := by
    rw [codes_append, hword]
    exact List.isPrefixOf_iff_prefix.2 (List.prefix_append _ _)
  have hlength : cs.length = word.length := by rw [← hword, codes, List.length_map]
  obtain ⟨blank, blanks, rfl⟩ := List.exists_cons_of_ne_nil hne
  have hpass : ∀ c ∈ blanks, Text.isBlank c.code = true :=
    fun c hc => hblanks c.code (List.mem_cons_of_mem _ (List.mem_map_of_mem hc))
  rw [behindWord, if_pos hbegins, hlength, List.drop_left, Option.bind_some, List.cons_append,
    behindBlanks, if_pos (hblanks _ List.mem_cons_self), dropWhile_append_of_head hpass hrest]

theorem skipBlanks_append {blanks : Source} (h : Text.Blank (codes blanks)) (rest : Source) :
    skipBlanks (blanks ++ rest) = skipBlanks rest :=
  List.dropWhile_append_of_pos fun c hc => h c.code (List.mem_map_of_mem hc)

theorem behindSemicolon_append {blanks : Source} {semicolon : SourceChar}
    (hblanks : Text.Blank (codes blanks))
    (hsemicolon : semicolon.code = ';') (rest : Source) :
    behindSemicolon (blanks ++ semicolon :: rest) = some rest := by
  have hskip : skipBlanks (semicolon :: rest) = semicolon :: rest :=
    List.dropWhile_cons_of_neg (by rw [hsemicolon]; decide)
  rw [behindSemicolon, skipBlanks_append hblanks, hskip]
  simp [hsemicolon]

/-- What goes on with something else does not end with a semicolon. -/
theorem behindSemicolon_eq_none (hlast : ∃ c ∈ part, Text.isBlank c.code = false)
    (hsemicolon : ';' ∉ codes part)
    (rest : Source) : behindSemicolon (part ++ rest) = none := by
  obtain ⟨c, hc, hblank⟩ := hlast
  have hne : skipBlanks part ≠ [] :=
    fun hnil => absurd (List.dropWhile_eq_nil_iff.1 hnil c hc) (by simp [hblank])
  obtain ⟨d, more, hskip⟩ := List.exists_cons_of_ne_nil hne
  have happend : skipBlanks (part ++ rest) = d :: (more ++ rest) := by
    rw [skipBlanks, List.dropWhile_append]
    show (if (skipBlanks part).isEmpty = true then skipBlanks rest else skipBlanks part ++ rest) = _
    rw [if_neg fun hempty => hne (List.isEmpty_iff.1 hempty), hskip]
    rfl
  have hd : d.code ≠ ';' := by
    intro heq
    refine hsemicolon (List.mem_map.2 ⟨d, ?_, heq⟩)
    exact (List.dropWhile_suffix _).subset
      (show d ∈ skipBlanks part by rw [hskip]; exact List.mem_cons_self)
  rw [behindSemicolon, happend]
  simp [hd]

/-- **The name of an import is read up to its semicolon.** -/
theorem importPath_readable {path blanks : Source} {semicolon : SourceChar} (hne : path ≠ [])
    (hpath : IsReadablePath (codes path)) (hblanks : Text.Blank (codes blanks))
    (hsemicolon : semicolon.code = ';')
    (rest : Source) : importPath (path ++ (blanks ++ semicolon :: rest))
      = some (codes path, rest) := by
  have hend : ∀ c ∈ (blanks ++ semicolon :: rest).head?, isPathChar c.code = false := by
    cases blanks with
    | nil =>
      rintro c ⟨⟩
      rw [hsemicolon]
      decide
    | cons blank blanks =>
      rintro c ⟨⟩
      exact isPathChar_of_isBlank (hblanks _ List.mem_cons_self)
  have hsemi := behindSemicolon_append hblanks hsemicolon rest
  rcases hpath with hall | ⟨hstar, hdot, hfront, hall⟩
  · have hpass : ∀ c ∈ path, isPathChar c.code = true :=
      fun c hc => hall c.code (List.mem_map_of_mem hc)
    unfold importPath
    simp only [takeWhile_append_of_head hpass hend, dropWhile_append_of_head hpass hend, hsemi]
    rw [if_neg]
    simpa [codes] using hne
  · -- the star is no character of a name
    obtain ⟨stem, star, rfl⟩ : ∃ stem star, path = stem ++ [star] :=
      ⟨_, _, (List.dropLast_concat_getLast hne).symm⟩
    rw [codes_append, codes_cons, codes_nil] at hstar hdot hfront hall ⊢
    rw [List.getLast?_concat] at hstar
    rw [List.dropLast_concat] at hdot hfront hall
    have hpass : ∀ c ∈ stem, isPathChar c.code = true :=
      fun c hc => hall c.code (List.mem_map_of_mem hc)
    have hcode : star.code = '*' := Option.some.inj hstar
    have hhead : ∀ c ∈ (star :: (blanks ++ semicolon :: rest)).head?,
        isPathChar c.code = false := by
      rintro c ⟨⟩
      rw [hcode]
      decide
    have hnone : behindSemicolon (star :: (blanks ++ semicolon :: rest)) = none := by
      rw [behindSemicolon_cons (by rw [hcode]; decide), if_neg (by rw [hcode]; decide)]
    obtain ⟨d, ds, hds⟩ := List.exists_cons_of_ne_nil hfront
    have hempty : (codes stem).isEmpty = false := by
      cases hstem : codes stem with
      | nil => simp [hstem] at hdot
      | cons _ _ => rfl
    rw [List.append_assoc, List.singleton_append]
    unfold importPath
    simp only [takeWhile_append_of_head hpass hhead, dropWhile_append_of_head hpass hhead, hnone,
      hempty, hdot, hds, hsemi, hcode]
    simp

/-- The name of an import ends with no blank. -/
theorem exists_not_blank {front back : Source}
    (htrim : Text.trim (codes (front ++ back)) = codes (front ++ back))
    (hne : back ≠ []) : ∃ c ∈ back, Text.isBlank c.code = false := by
  obtain ⟨stem, last, rfl⟩ : ∃ stem last, back = stem ++ [last] :=
    ⟨_, _, (List.dropLast_concat_getLast hne).symm⟩
  refine ⟨last, by simp, Text.getLast?_of_trim htrim last.code ?_⟩
  rw [← List.append_assoc, codes_append, codes_cons, codes_nil, List.getLast?_concat]
  rfl

/-- **A name that cannot be read ends the reading.** -/
theorem importPath_unreadable {path : Source} (htrim : Text.trim (codes path) = codes path)
    (hsemicolon : ';' ∉ codes path) (hpath : ¬ IsReadablePath (codes path)) (rest : Source) :
    importPath (path ++ rest) = none := by
  have hcut := List.takeWhile_append_dropWhile
    (p := fun c : SourceChar => isPathChar c.code) (l := path)
  have hnames : ∀ c ∈ path.takeWhile (fun c => isPathChar c.code), isPathChar c.code = true :=
    fun c hc => (List.mem_takeWhile_imp hc :)
  have hhead := List.head?_dropWhile_not (fun c : SourceChar => isPathChar c.code) path
  generalize path.takeWhile (fun c => isPathChar c.code) = names at hcut hnames
  generalize path.dropWhile (fun c => isPathChar c.code) = more at hcut hhead
  subst hcut
  cases more with
  | nil =>
    refine absurd (.inl fun c hc => ?_) hpath
    rw [List.append_nil] at hc
    obtain ⟨d, hd, rfl⟩ := List.mem_map.1 hc
    exact hnames d hd
  | cons x ys =>
    have hx : ∀ c ∈ (x :: (ys ++ rest)).head?, isPathChar c.code = false := by
      rintro c ⟨⟩
      simpa using hhead
    have hparts : ';' ∉ codes (x :: ys) ∧ ';' ∉ codes ys := by
      constructor <;> intro hmem <;> refine hsemicolon ?_ <;> rw [codes_append, codes_cons]
      · exact List.mem_append_right _ hmem
      · exact List.mem_append_right _ (List.mem_cons_of_mem _ hmem)
    have hnone : behindSemicolon (x :: (ys ++ rest)) = none :=
      behindSemicolon_eq_none (exists_not_blank htrim (List.cons_ne_nil x ys)) hparts.1 rest
    rw [List.append_assoc, List.cons_append]
    unfold importPath
    simp only [takeWhile_append_of_head hnames hx, dropWhile_append_of_head hnames hx, hnone]
    split
    · rfl
    · split
      next star behind hdot hfront heq =>
        obtain ⟨rfl, rfl⟩ := List.cons.inj heq
        split
        next hstar =>
          -- the star is not the end of the name
          have hys : ys ≠ [] := by
            rintro rfl
            refine hpath (.inr ?_)
            rw [codes_append, codes_cons, codes_nil, List.getLast?_concat,
              List.dropLast_concat, beq_iff_eq.1 hstar]
            refine ⟨rfl, hdot, by rw [hfront]; simp, fun c hc => ?_⟩
            obtain ⟨d, hd, rfl⟩ := List.mem_map.1 hc
            exact hnames d hd
          have htail : Text.trim (codes ((names ++ [x]) ++ ys)) = codes ((names ++ [x]) ++ ys) := by
            simpa using htrim
          rw [behindSemicolon_eq_none (exists_not_blank htail hys) hparts.2]
          rfl
        · rfl
      · rfl

theorem IsReadablePath.isBlank {path : List Char} (h : IsReadablePath path) :
    ∀ c ∈ path, Text.isBlank c = false := by
  have hchar : ∀ {d : Char}, isPathChar d = true → Text.isBlank d = false := by
    intro d hd
    refine Bool.eq_false_iff.2 fun hblank => ?_
    rw [show isPathChar d = false from isPathChar_of_isBlank (c := shown d) hblank] at hd
    exact Bool.noConfusion hd
  rcases h with hall | ⟨hstar, -, -, hall⟩
  · exact fun c hc => hchar (hall c hc)
  · intro c hc
    obtain ⟨stem, rfl⟩ := List.getLast?_eq_some_iff.1 hstar
    rcases List.mem_append.1 hc with hc | hc
    · exact hchar (hall c (by rwa [List.dropLast_concat]))
    · rw [List.mem_singleton.1 hc]
      decide

theorem pathName_of_readable {path : List Char} (h : IsReadablePath path) : pathName path = path :=
  List.filter_eq_self.2 fun c hc => by simp [h.isBlank c hc]

/-- Behind the name of an import only its semicolon is left. -/
theorem importPath_eq {path blanks : Source} {semicolon : SourceChar} (hne : path ≠ [])
    (htrim : Text.trim (codes path) = codes path) (hin : ';' ∉ codes path)
    (hblanks : Text.Blank (codes blanks))
    (hsemicolon : semicolon.code = ';') (rest : Source) :
    importPath (path ++ (blanks ++ semicolon :: rest))
      = if IsReadablePath (codes path) then some (codes path, rest) else none := by
  by_cases hpath : IsReadablePath (codes path)
  · rw [importPath_readable hne hpath hblanks hsemicolon, if_pos hpath]
  · rw [importPath_unreadable htrim hin hpath, if_neg hpath]

/-- **An import, character by character.** -/
structure ImportParts (c : ImportClause) (part : Source) where
  lead : Source
  word : Source
  gap : Source
  static : Source
  path : Source
  behind : Source
  semicolon : SourceChar
  part_eq : part = lead ++ (word ++ (gap ++ (static ++ (path ++ (behind ++ [semicolon])))))
  codes_lead : codes lead = c.lead
  codes_word : codes word = "import".toList
  codes_gap : codes gap = c.gap
  codes_static : codes static = c.staticGap.elim [] ("static".toList ++ ·)
  codes_path : codes path = c.path
  codes_behind : codes behind = c.behind
  code_semicolon : semicolon.code = ';'

theorem exists_importParts (hpart : codes part = c.code) : Nonempty (ImportParts c part) := by
  have hcodes : codes part = c.lead ++ ("import".toList ++ (c.gap ++
      (c.staticGap.elim [] ("static".toList ++ ·) ++ (c.path ++ (c.behind ++ [';']))))) := by
    rw [hpart, ImportClause.code, ImportClause.tail]
    simp
  obtain ⟨lead, afterLead, hpart, hlead, hafterLead⟩ := List.map_eq_append_iff.1 hcodes
  obtain ⟨word, afterWord, rfl, hword, hafterWord⟩ := List.map_eq_append_iff.1 hafterLead
  obtain ⟨gap, afterGap, rfl, hgap, hafterGap⟩ := List.map_eq_append_iff.1 hafterWord
  obtain ⟨static, afterStatic, rfl, hstatic, hafterStatic⟩ := List.map_eq_append_iff.1 hafterGap
  obtain ⟨path, afterPath, rfl, hpath, hafterPath⟩ := List.map_eq_append_iff.1 hafterStatic
  obtain ⟨behind, last, rfl, hbehind, hlast⟩ := List.map_eq_append_iff.1 hafterPath
  obtain ⟨semicolon, rfl, hsemicolon⟩ : ∃ semicolon, last = [semicolon] ∧ semicolon.code = ';' := by
    simpa [List.map_eq_singleton_iff] using hlast
  exact ⟨lead, word, gap, static, path, behind, semicolon, hpart, hlead, hword, hgap, hstatic,
    hpath, hbehind, hsemicolon⟩

/-- The first character of a part decides whether blanks are skipped. -/
theorem not_blank_head {part : Source} {first : Char} {letters : List Char}
    (h : codes part = first :: letters)
    (hfirst : Text.isBlank first = false) (more : Source) :
    ∀ d ∈ (part ++ more).head?, Text.isBlank d.code = false := by
  obtain ⟨e, part, rfl, he, -⟩ := List.map_eq_cons_iff.1 h
  rintro d ⟨⟩
  rwa [he]

/-- An import without the word `static` is read from its name on. -/
theorem ImportClause.IsImport.behindStatic_eq_none (hc : c.IsImport)
    (q : ImportParts c part) (rest : Source) :
    (behindWord "static".toList (q.path ++ (q.behind ++ q.semicolon :: rest))).bind
    behindBlanks = none := by
  rw [Option.eq_none_iff_forall_ne_some]
  intro found hfound
  obtain ⟨blank, more, hbegins, hblank⟩ := exists_of_behindWord hfound
  have hnot : ';' ∉ "static".toList ++ [blank] := semicolon_not_mem_word (by decide) hblank
  refine hc.unreserved "static" (by decide) blank hblank (List.IsPrefix.isInfix ?_)
  refine Text.prefix_of_not_mem hnot (show _ <+: _ ++ ';' :: codes rest from ⟨more, ?_⟩)
  rw [List.append_assoc, List.singleton_append, ← hbegins, codes_append, codes_append, codes_cons,
    q.codes_path, q.codes_behind, q.code_semicolon, List.append_assoc]

/-- Read as a name, the word `static` does not end where the name begins. -/
theorem ImportClause.IsImport.importPath_static (hc : c.IsImport)
    {static path : Source} {gap : List Char}
    (hstatic : codes static = "static".toList ++ gap) (hgap : gap ∈ c.staticGap)
    (hpath : codes path = c.path)
    (rest : Source) : importPath (static ++ (path ++ rest)) = none := by
  obtain ⟨hblanks, hne⟩ := hc.staticGap gap hgap
  obtain ⟨blank, gap, rfl⟩ := List.exists_cons_of_ne_nil hne
  have hblank : Text.isBlank blank = true := hblanks blank List.mem_cons_self
  have hmem : blank ∈ codes (static ++ path) := by
    rw [codes_append, hstatic]
    simp
  rw [← List.append_assoc]
  refine importPath_unreadable ?_ ?_
    (fun hreadable => absurd hblank (by simp [hreadable.isBlank blank hmem])) rest
  · rw [codes_append, hstatic, hpath]
    refine Text.trim_eq_self (by rintro d ⟨⟩; decide) fun d hd => ?_
    rw [List.getLast?_append_of_ne_nil _ hc.path_ne_nil] at hd
    exact Text.getLast?_of_trim hc.path_trim d hd
  · rw [codes_append, hstatic, hpath]
    have hnot : ';' ∉ blank :: gap := hblanks.not_mem (by decide)
    simp only [List.mem_append, not_or]
    exact ⟨⟨by decide, hnot⟩, hc.semicolon⟩

/-- **An import is read exactly if its name can be read.** -/
theorem ImportClause.IsImport.importAt (hc : c.IsImport) (hpart : codes part = c.code)
    (rest : Source) :
    Source.importAt (part ++ rest)
      = if IsReadablePath c.path then some (c.name, rest) else none := by
  obtain ⟨q⟩ := exists_importParts hpart
  have hne : ∀ {part : Source} {cs : List Char}, codes part = cs → cs ≠ [] → part ≠ [] := by
    rintro part cs rfl hne rfl
    exact hne rfl
  obtain ⟨first, letters, hletters⟩ := List.exists_cons_of_ne_nil hc.path_ne_nil
  have hfirst : Text.isBlank first = false :=
    Text.head?_of_trim hc.path_trim first (by rw [hletters]; rfl)
  have hstart := not_blank_head (q.codes_path.trans hletters) hfirst
  have hpath := importPath_eq (hne q.codes_path hc.path_ne_nil) (by rw [q.codes_path, hc.path_trim])
    (by rw [q.codes_path]; exact hc.semicolon)
      (by rw [q.codes_behind]; exact hc.behind) q.code_semicolon rest
  rw [q.codes_path] at hpath
  have hgap : Text.Blank (codes q.gap) := q.codes_gap ▸ hc.gap
  have hgapne : q.gap ≠ [] := hne q.codes_gap hc.gap_ne_nil
  have hskip : ∀ more : Source, skipBlanks (q.lead ++ (q.word ++ more)) = q.word ++ more := by
    intro more
    rw [skipBlanks_append (q.codes_lead ▸ hc.lead)]
    exact @dropWhile_append_of_head _ [] _ (by simp) (not_blank_head q.codes_word (by decide) more)
  have hcut : part ++ rest = q.lead ++ (q.word ++ (q.gap ++ (q.static ++
      (q.path ++ (q.behind ++ q.semicolon :: rest))))) := by
    conv_lhs => rw [q.part_eq]
    simp
  rw [hcut]
  unfold Source.importAt
  rw [hskip]
  cases hstatic : c.staticGap with
  | none =>
    have hnil : q.static = [] := by simpa [codes, hstatic] using q.codes_static
    rw [hnil, List.nil_append, behindWord_bind q.codes_word hgap hgapne (hstart _),
      Option.bind_some, hc.behindStatic_eq_none q, Option.bind_none, hpath]
    by_cases hreadable : IsReadablePath c.path
    · simp [if_pos hreadable, name, hstatic, pathName_of_readable hreadable]
    · simp [if_neg hreadable]
  | some gap =>
    have hcodes : codes q.static = "static".toList ++ gap := by rw [q.codes_static, hstatic]; rfl
    obtain ⟨letters, spaces, hcut, hword, hspaces⟩ := List.map_eq_append_iff.1 hcodes
    obtain ⟨hblanks, hgap'⟩ := hc.staticGap gap hstatic
    have hbehind : (behindWord "static".toList
        (q.static ++ (q.path ++ (q.behind ++ q.semicolon :: rest)))).bind
        behindBlanks = some (q.path ++ (q.behind ++ q.semicolon :: rest)) := by
      rw [hcut, List.append_assoc]
      exact behindWord_bind hword
        (show Text.Blank (spaces.map SourceChar.code) from hspaces.symm ▸ hblanks)
        (hne hspaces hgap') (hstart _)
    rw [behindWord_bind q.codes_word hgap hgapne (not_blank_head hcodes (by decide) _),
      Option.bind_some, hbehind, Option.bind_some, hpath,
      hc.importPath_static hcodes hstatic q.codes_path]
    by_cases hreadable : IsReadablePath c.path
    · simp [if_pos hreadable, name, hstatic, pathName_of_readable hreadable]
    · simp [if_neg hreadable]

/-! ## Reading all imports -/

/-- **A part in which no import begins is passed**, and no line begins behind
it. -/
theorem importsFrom_passed
    (hpart : ∀ back, back ≠ [] → back <:+ part → importAt (back ++ rest) = none)
    (hlast : ∃ c ∈ part.getLast?, c.code ≠ '\n') (lineStart : Bool) :
    importsFrom lineStart (part ++ rest) = importsFrom false rest := by
  induction part generalizing lineStart with
  | nil => simp at hlast
  | cons c part ih =>
    have hnone := hpart (c :: part) (List.cons_ne_nil _ _) List.suffix_rfl
    rw [List.cons_append] at hnone ⊢
    rw [importsFrom_cons_of_none fun _ => hnone]
    cases part with
    | nil =>
      obtain ⟨d, ⟨⟩, hd⟩ := hlast
      rw [show (c.code == '\n') = false from beq_eq_false_iff_ne.2 hd]
      rfl
    | cons d part =>
      rw [List.getLast?_cons_cons] at hlast
      exact ih (fun back hne hback => hpart back hne (hback.trans (List.suffix_cons c _))) hlast _

theorem importsFrom_barren (hpart : Barren (codes part) (codes rest))
    (hlast : ∃ c ∈ part.getLast?, c.code ≠ '\n')
    (lineStart : Bool) : importsFrom lineStart (part ++ rest) = importsFrom false rest := by
  refine importsFrom_passed (fun back hne ⟨front, hfront⟩ => importAt_eq_none ?_) hlast lineStart
  rw [codes_append]
  refine hpart (codes back) (by simpa [codes] using hne) ⟨codes front, ?_⟩
  rw [← codes_append, hfront]

/-- Behind a semicolon no line begins. -/
theorem exists_getLast?_of_semicolon {cs : List Char} (h : codes part = cs ++ [';']) :
    ∃ c ∈ part.getLast?, c.code ≠ '\n' := by
  obtain ⟨stem, last, rfl, -, hcode⟩ := List.map_eq_append_iff.1 h
  obtain ⟨semicolon, rfl, hsemicolon⟩ : ∃ semicolon, last = [semicolon] ∧ semicolon.code = ';' := by
    simpa [List.map_eq_singleton_iff] using hcode
  exact ⟨semicolon, by simp, by rw [hsemicolon]; decide⟩

theorem importAt_blanks {blanks : Source} (h : Text.Blank (codes blanks)) (rest : Source) :
    importAt (blanks ++ rest) = importAt rest := by
  unfold importAt
  rw [skipBlanks_append h]

/-- **Blanks with the beginning of a line** are read from the line on. -/
theorem exists_importsFrom_blanks {blanks : Source} (hblanks : Text.Blank (codes blanks))
    {lineStart : Bool}
    (hline : lineStart = true ∨ '\n' ∈ codes blanks) (rest : Source) :
    ∃ back, Text.Blank (codes back) ∧
      importsFrom lineStart (blanks ++ rest) = importsFrom true (back ++ rest) := by
  by_cases hstart : lineStart = true
  · exact ⟨blanks, hblanks, by rw [hstart]⟩
  · obtain ⟨front, back, hcut, hfront⟩ := List.eq_append_cons_of_mem (hline.resolve_left hstart)
    obtain ⟨front, behind, rfl, rfl, hbehind⟩ := List.map_eq_append_iff.1 hcut
    obtain ⟨newline, back, rfl, hnewline, rfl⟩ := List.map_eq_cons_iff.1 hbehind
    obtain rfl := eq_shown_of_code hnewline (by decide)
    refine ⟨back, fun d hd => hblanks d ?_, ?_⟩
    · rw [codes_append, codes_cons]
      exact List.mem_append_right _ (List.mem_cons_of_mem _ hd)
    · rw [Bool.eq_false_iff.2 hstart, List.append_assoc, List.cons_append]
      exact importsFrom_line (fun d hd heq => hfront (heq ▸ List.mem_map_of_mem hd)) _

/-- **If no import is read behind the blanks, none is read in the clause.** -/
theorem importAt_of_suffix {blanks tail back : Source} {first : SourceChar}
    (hblanks : Text.Blank (codes blanks)) (htail : Barren (codes tail) (codes rest))
    (hnone : importAt (first :: tail ++ rest) = none) (hne : back ≠ [])
    (hback : back <:+ blanks ++ first :: tail) : importAt (back ++ rest) = none := by
  obtain ⟨front, hfront⟩ := hback
  rcases List.append_eq_append_iff.1 hfront with ⟨between, rfl, rfl⟩ | ⟨between, rfl, hcut⟩
  · rw [List.append_assoc, importAt_blanks, hnone]
    exact fun d hd => hblanks d (by rw [codes_append]; exact List.mem_append_right _ hd)
  · cases between with
    | nil => rw [← hcut.trans (List.nil_append back), hnone]
    | cons e between =>
      refine importAt_eq_none ?_
      rw [codes_append]
      refine htail (codes back) (by simpa [codes] using hne) ⟨codes between, ?_⟩
      rw [← codes_append]
      exact (congrArg codes (List.cons.inj hcut).2).symm

/-- **An import is read** if it begins on a line of its own and its name can be
read. -/
theorem ImportClause.IsImport.importsFrom (hc : c.IsImport) (hpart : codes part = c.code)
    (lineStart : Bool)
    (rest : Source) : (Source.importsFrom lineStart (part ++ rest)).1
      = if (lineStart = true ∨ '\n' ∈ c.lead) ∧
      IsReadablePath c.path then c.name :: (Source.importsFrom false rest).1
        else (Source.importsFrom false rest).1 := by
  have hat := hc.importAt hpart rest
  have hsemicolon : codes part = (c.lead ++ 'i' :: c.tail) ++ [';'] := by
    rw [hpart, ImportClause.code, List.append_assoc, List.cons_append]
  have hend := exists_getLast?_of_semicolon hsemicolon
  obtain ⟨lead, more, rfl, hlead, hmore⟩ := List.map_eq_append_iff.1 hpart
  obtain ⟨first, tail, rfl, hfirst, htail⟩ := List.map_eq_cons_iff.1 hmore
  have hlead : codes lead = c.lead := hlead
  have hblank : Text.Blank (codes lead) := hlead.symm ▸ hc.lead
  have hbarren : Barren (codes tail) (codes rest) := by
    rw [show codes tail = c.tail ++ [';'] from htail]
    exact hc.barren_tail _
  rw [List.append_assoc, importAt_blanks hblank] at hat
  by_cases hreadable : IsReadablePath c.path
  · rw [if_pos hreadable] at hat
    by_cases hline : lineStart = true ∨ '\n' ∈ c.lead
    · rw [if_pos ⟨hline, hreadable⟩]
      -- in front of the import a line begins, at the first place or behind a line end
      obtain ⟨back, hback, hread⟩ :=
        exists_importsFrom_blanks hblank (hlead.symm ▸ hline) (first :: tail ++ rest)
      obtain ⟨d, more, hcons⟩ : ∃ d more, back ++ (first :: tail ++ rest) = d :: more :=
        List.exists_cons_of_ne_nil (by simp)
      have hfound : Source.importAt (d :: more) = some (c.name, rest) := by
        rw [← hcons, importAt_blanks hback, hat]
      rw [List.append_assoc, hread, hcons, importsFrom_cons_of_some hfound]
    · rw [if_neg fun hboth => hline hboth.1]
      obtain ⟨hstart, hnewline⟩ := not_or.1 hline
      have hinline : ∀ d ∈ lead ++ [first], d.code ≠ '\n' := by
        intro d hd heq
        rcases List.mem_append.1 hd with hd | hd
        · exact hnewline (hlead ▸ heq ▸ List.mem_map_of_mem hd)
        · rw [List.mem_singleton.1 hd, hfirst] at heq
          exact absurd heq (by decide)
      have hcut : (lead ++ first :: tail) ++ rest = (lead ++ [first]) ++ (tail ++ rest) := by simp
      rw [hcut, Bool.eq_false_iff.2 hstart, importsFrom_inline hinline,
        importsFrom_barren hbarren (exists_getLast?_of_semicolon htail)]
  · rw [if_neg hreadable] at hat
    rw [if_neg fun hboth => hreadable hboth.2]
    have hnone := fun back => @importAt_of_suffix rest lead tail back first hblank hbarren hat
    exact congrArg Prod.fst (importsFrom_passed hnone hend lineStart)

/-- Imports one behind the other. -/
theorem importsFrom_clauses {imports : List ImportClause} (himports : ∀ c ∈ imports, c.IsImport)
    (hpart : codes part = imports.flatMap (·.code)) (hrest : ∀ c ∈ rest, c.code ≠ ';')
    (lineStart : Bool) :
    (importsFrom lineStart (part ++ rest)).1
      = (Prologue.readFrom lineStart imports).map (·.name) := by
  induction imports generalizing part lineStart with
  | nil =>
    obtain rfl : part = [] := List.map_eq_nil_iff.1 hpart
    rw [List.nil_append, importsFrom_of_no_semicolon hrest]
    rfl
  | cons c imports ih =>
    rw [List.flatMap_cons] at hpart
    obtain ⟨first, more, rfl, hfirst, hmore⟩ := List.map_eq_append_iff.1 hpart
    have hnext := ih (fun d hd => himports d (List.mem_cons_of_mem c hd)) hmore false
    rw [List.append_assoc, (himports c List.mem_cons_self).importsFrom hfirst,
      Prologue.readFrom, hnext]
    split <;> rfl

/-- **The imports that are read** from a package and imports, in front of
something without semicolons. -/
theorem Prologue.IsPrologue.importsFrom (hp : p.IsPrologue) (hpart : codes part = p.code)
    (hrest : ∀ c ∈ rest, c.code ≠ ';') : (Source.importsFrom true (part ++ rest)).1
      = p.read.map (·.name) := by
  rw [Prologue.read]
  cases hpackage : p.package with
  | none =>
    refine importsFrom_clauses hp.imports ?_ hrest true
    rw [hpart, Prologue.code, hpackage]
    rfl
  | some package =>
    rw [Prologue.code, hpackage] at hpart
    obtain ⟨first, more, rfl, hfirst, hmore⟩ := List.map_eq_append_iff.1 hpart
    have hbarren : Barren (codes first) (codes (more ++ rest)) := by
      rw [show codes first = package.code from hfirst]
      exact (hp.package package hpackage).barren _
    rw [List.append_assoc, importsFrom_barren hbarren (exists_getLast?_of_semicolon hfirst)]
    exact importsFrom_clauses hp.imports hmore hrest false

end

end TableMapper.Source
