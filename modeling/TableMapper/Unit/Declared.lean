import TableMapper.Text.Balanced
import TableMapper.Text.WordChar
import TableMapper.Unit.Basic
import TableMapper.Unit.Source

/-!
# The declaration in an existing source file

Of an existing file are read: the first type declaration, with the types it
extends and implements; the imports in front of it; and the annotations
between the imports and the declaration. Everything is looked for in the
code alone, never in comments or literals.
-/

namespace TableMapper

/-- What a declaration declares. -/
inductive DeclaredKind
  | «class»
  | interface
  | enum
  | record
  | annotationType
deriving Repr, DecidableEq

/-- The word that introduces a declaration. -/
def DeclaredKind.keyword : DeclaredKind → String
  | .class => "class"
  | .interface => "interface"
  | .enum => "enum"
  | .record => "record"
  | .annotationType => "@interface"

/-- All kinds of declarations. -/
def DeclaredKind.all : List DeclaredKind :=
  [.class, .interface, .enum, .record, .annotationType]

/-- What a class or an interface of ours is declared as. -/
def TypeKind.declared : TypeKind → DeclaredKind
  | .class => .class
  | .interface => .interface

@[simp] theorem TypeKind.keyword_declared (k : TypeKind) : k.declared.keyword = k.keyword := by
  cases k <;> rfl

namespace Source

/-- What follows a word at the beginning of a text. -/
def behindWord (word : List Char) (source : Source) : Option Source :=
  if word.isPrefixOf source.codes then some (source.drop word.length) else none

/-- What follows at least one blank. -/
def behindBlanks : Source → Option Source
  | [] => none
  | c :: rest =>
    if Text.isBlank c.code then some (rest.dropWhile fun d => Text.isBlank d.code) else none

/-- What follows any blanks. -/
def skipBlanks (source : Source) : Source :=
  source.dropWhile fun c => Text.isBlank c.code

/-! ## The declaration -/

/-- A character that begins the name of a type. -/
def isNameStart (c : Char) : Bool :=
  c.isAlpha || c == '_' || c == '$'

/-- A character that continues the name of a type. -/
def isNamePart (c : Char) : Bool :=
  Text.isWordChar c || c == '$'

/-- What follows the name of a type. -/
def behindName : Source → Option Source
  | [] => none
  | c :: rest =>
    if isNameStart c.code then some (rest.dropWhile fun d => isNamePart d.code) else none

/-- The first word character of a keyword must follow no word character;
the keyword that begins with `@` is found only behind one. -/
def keywordFits (wordBefore : Bool) (kind : DeclaredKind) : Bool :=
  match kind with
  | .annotationType => wordBefore
  | _ => !wordBefore

/-- A declaration at the beginning of a text: its kind, and what follows the
name declared. -/
def declarationAt (wordBefore : Bool) (source : Source) : Option (DeclaredKind × Source) :=
  DeclaredKind.all.findSome? fun kind =>
    if keywordFits wordBefore kind then
      ((behindWord kind.keyword.toList source).bind behindBlanks).bind fun name =>
        (behindName name).map fun rest => (kind, rest)
    else none

/-- A declaration in its file. -/
structure Declaration where
  kind : DeclaredKind
  /-- What stands in front of the declaration. -/
  prelude : Source
  /-- What follows the name declared. -/
  rest : Source
deriving Repr, DecidableEq

/-- The first declaration from a place on, where the text in front is held
in reverse. -/
def findDeclaration (before : Source) : Source → Option Declaration
  | [] => none
  | c :: rest =>
    let wordBefore := before.head?.any fun d => Text.isWordChar d.code
    match declarationAt wordBefore (c :: rest) with
    | some (kind, behind) => some ⟨kind, before.reverse, behind⟩
    | none => findDeclaration (c :: before) rest

/-! ## What a declaration extends and implements -/

/-- The type lists of a declaration. -/
structure Clauses where
  extends? : List String := []
  implements : List String := []
deriving Repr, DecidableEq

/-- The types named in a list. -/
def typeList (cs : List Char) : List String :=
  (Text.listItems cs).map String.ofList

/-- What follows a word and at least one blank. -/
def behindKeyword (word : String) (cs : List Char) : Option (List Char) :=
  if word.toList.isPrefixOf cs then
    match cs.drop word.length with
    | [] => none
    | c :: rest => if Text.isBlank c then some (Text.trimStart rest) else none
  else none

/-- The list of implemented types, which ends with the header and stands on
one line. -/
def implementsList? (cs : List Char) : Option (List String) :=
  (behindKeyword "implements" cs).bind fun rest =>
    let list := Text.trimEnd rest
    if list.contains '\n' then none else some (typeList list)

/-- The shortest list of extended types, on one line, behind which the
header ends or goes on with the implemented types. The part of the list that
has been read is held in reverse. -/
def extendsFrom (read : List Char) (cs : List Char) : Option Clauses :=
  let behind := Text.trimStart cs
  if behind.isEmpty then some { extends? := typeList read.reverse }
  else
    match implementsList? behind with
    | some implemented => some { extends? := typeList read.reverse, implements := implemented }
    | none =>
      match cs with
      | [] => none
      | c :: rest => if c == '\n' then none else extendsFrom (c :: read) rest

/-- **The type lists of a header**, given what stands between the name and
the opening brace. A header that has anything else names no types. -/
def clauses (header : List Char) : Clauses :=
  let start := Text.trimStart header
  let behindParameters :=
    match start with
    | '<' :: _ => Text.dropBalanced '<' '>' 0 start
    | _ => start
  let cs := Text.trim behindParameters
  match behindKeyword "extends" cs with
  | some rest => (extendsFrom [] rest).getD {}
  | none => { implements := (implementsList? cs).getD [] }

/-! ## Imports -/

/-- A character of a qualified name. -/
def isPathChar (c : Char) : Bool :=
  Text.isWordChar c || c == '.'

/-- What follows a semicolon, blanks before it being skipped. -/
def behindSemicolon (source : Source) : Option Source :=
  match skipBlanks source with
  | [] => none
  | c :: rest => if c.code == ';' then some rest else none

/-- The name that an import ends with, possibly with a star, and what
follows the import. -/
def importPath (source : Source) : Option (List Char × Source) :=
  let path := codes (source.takeWhile fun c => isPathChar c.code)
  let rest := source.dropWhile fun c => isPathChar c.code
  if path.isEmpty then none
  else
    match behindSemicolon rest with
    | some behind => some (path, behind)
    | none =>
      match path.getLast?, path.dropLast, rest with
      | some '.', _ :: _, star :: behind =>
        if star.code == '*' then
          (behindSemicolon behind).map fun behind => (path ++ ['*'], behind)
        else none
      | _, _, _ => none

/-- An import at the beginning of a line, and what follows it. -/
def importAt (source : Source) : Option (String × Source) :=
  ((behindWord "import".toList (skipBlanks source)).bind behindBlanks).bind fun rest =>
    match ((behindWord "static".toList rest).bind behindBlanks).bind importPath with
    | some (path, behind) => some ("static " ++ String.ofList path, behind)
    | none => (importPath rest).map fun (path, behind) => (String.ofList path, behind)

theorem behindWord_length {word : List Char} {source rest : Source}
    (h : behindWord word source = some rest) : rest.length ≤ source.length := by
  unfold behindWord at h
  split at h
  · simp only [Option.some.injEq] at h
    simp [← h]
  · simp at h

theorem behindBlanks_length {source rest : Source} (h : behindBlanks source = some rest) :
    rest.length < source.length := by
  unfold behindBlanks at h
  split at h
  · simp at h
  next c rest' =>
    have := (List.dropWhile_suffix (fun d => Text.isBlank d.code) (l := rest')).length_le
    split at h
    · simp only [Option.some.injEq] at h
      rw [← h, List.length_cons]
      omega
    · simp at h

theorem behindSemicolon_length {source rest : Source} (h : behindSemicolon source = some rest) :
    rest.length ≤ source.length := by
  have hs := (List.dropWhile_suffix (fun c => Text.isBlank c.code) (l := source)).length_le
  unfold behindSemicolon skipBlanks at h
  split at h
  · simp at h
  next c rest' hdrop =>
    rw [hdrop, List.length_cons] at hs
    split at h
    · simp only [Option.some.injEq] at h
      rw [← h]
      omega
    · simp at h

theorem importPath_length {source rest : Source} {path : List Char}
    (h : importPath source = some (path, rest)) : rest.length ≤ source.length := by
  have hs := (List.dropWhile_suffix (fun c => isPathChar c.code) (l := source)).length_le
  unfold importPath at h
  extract_lets found behind at h
  have hbehind : behind.length ≤ source.length := hs
  split at h
  · simp at h
  · split at h
    next rear hrear =>
      have := behindSemicolon_length hrear
      simp only [Option.some.injEq, Prod.mk.injEq] at h
      rw [← h.2]
      omega
    · split at h
      next star rear _ _ hrest =>
        split at h
        · obtain ⟨last, hlast, heq⟩ := Option.map_eq_some_iff.1 h
          have := behindSemicolon_length hlast
          simp only [Prod.mk.injEq] at heq
          have : behind.length = rear.length + 1 := by rw [hrest]; rfl
          rw [← heq.2]
          omega
        · simp at h
      · simp at h

theorem importAt_length {source rest : Source} {path : String}
    (h : importAt source = some (path, rest)) : rest.length < source.length := by
  have hs := (List.dropWhile_suffix (fun c => Text.isBlank c.code) (l := source)).length_le
  unfold importAt at h
  obtain ⟨behind, hbehind, h⟩ := Option.bind_eq_some_iff.1 h
  obtain ⟨word, hword, hblank⟩ := Option.bind_eq_some_iff.1 hbehind
  have h₁ := behindWord_length hword
  have h₂ := behindBlanks_length hblank
  unfold skipBlanks at h₁
  split at h
  next path' rear hclass =>
    obtain ⟨mid, hmid, hpath⟩ := Option.bind_eq_some_iff.1 hclass
    obtain ⟨word', hword', hblank'⟩ := Option.bind_eq_some_iff.1 hmid
    have h₃ := behindWord_length hword'
    have h₄ := behindBlanks_length hblank'
    have h₅ := importPath_length hpath
    simp only [Option.some.injEq, Prod.mk.injEq] at h
    rw [← h.2]
    omega
  · obtain ⟨⟨path', rear⟩, hpath, heq⟩ := Option.map_eq_some_iff.1 h
    have h₃ := importPath_length hpath
    simp only [Prod.mk.injEq] at heq
    rw [← heq.2]
    omega

/-- The imports from a place on, and what follows the last one. An import
begins on a line of its own. -/
def importsFrom (lineStart : Bool) (source : Source) : List String × Option Source :=
  match source with
  | [] => ([], none)
  | c :: rest =>
    match _h : if lineStart then importAt (c :: rest) else none with
    | some (name, behind) =>
      let (names, last) := importsFrom false behind
      (name :: names, some (last.getD behind))
    | none => importsFrom (c.code == '\n') rest
termination_by source.length
decreasing_by
  · split at _h
    · exact importAt_length _h
    · simp at _h
  · simp

/-- What follows the package line. -/
def behindPackage : Source → Option Source
  | [] => none
  | c :: rest =>
    match behindWord "package".toList (c :: rest) with
    | some _ =>
      match (c :: rest).dropWhile fun d => d.code != ';' with
      | [] => none
      | _ :: behind => some behind
    | none => behindPackage rest

/-! ## Annotations -/

/-- A character that begins the name of an annotation. -/
def isMarkStart (c : Char) : Bool :=
  c.isAlpha || c == '_'

/-- The arguments of an annotation up to the first closing parenthesis,
blanks in front of them included; nothing if there are none. -/
def arguments (source : Source) : Source :=
  let blanks := source.takeWhile fun c => Text.isBlank c.code
  match skipBlanks source with
  | [] => []
  | c :: rest =>
    if c.code == '(' then
      match rest.dropWhile fun d => d.code != ')' with
      | [] => []
      | close :: _ => blanks ++ c :: rest.takeWhile (fun d => d.code != ')') ++ [close]
    else []

/-- The annotation at the beginning of a text. -/
def markAt : Source → Option Source
  | c :: d :: rest =>
    if c.code == '@' && isMarkStart d.code then
      let name := rest.takeWhile fun e => isPathChar e.code
      some (c :: d :: name ++ arguments (rest.drop name.length))
    else none
  | _ => none

/-- The annotations from a place on, where so many characters belong to the
last one found. -/
def marksFrom (skip : Nat) : Source → List Source
  | [] => []
  | c :: rest =>
    match skip with
    | skip + 1 => marksFrom skip rest
    | 0 =>
      match markAt (c :: rest) with
      | some mark => mark :: marksFrom (mark.length - 1) rest
      | none => marksFrom 0 rest

/-! ## All together -/

end Source

/-- What is read from an existing source file. -/
structure Declared where
  kind : DeclaredKind
  superclass : Option String
  superInterfaces : List String
  imports : List String
  annotations : List String
  /-- What follows the brace that opens the body. -/
  body : Source

/-- **The declaration in an existing source file**, if it has one with a
body. What an interface extends are interfaces. -/
def Declared.ofSource? (source : Source) : Option Declared := do
  let declaration ← Source.findDeclaration [] source
  let isHeader := fun c : SourceChar => c.code != '\x7b'
  let header := declaration.rest.takeWhile isHeader
  match declaration.rest.dropWhile isHeader with
  | [] => none
  | _ :: body =>
    let clauses := Source.clauses (Source.blanked header)
    let (imports, behindImports) := Source.importsFrom true declaration.prelude
    let behindPrelude :=
      (behindImports.or (Source.behindPackage declaration.prelude)).getD declaration.prelude
    return {
      kind := declaration.kind
      superclass := if declaration.kind = .interface then none else clauses.extends?.head?
      superInterfaces :=
        if declaration.kind = .interface then clauses.extends? else clauses.implements
      imports
      annotations := (Source.marksFrom 0 behindPrelude).map (·.text)
      body }

end TableMapper
