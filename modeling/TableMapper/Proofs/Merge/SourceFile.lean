import TableMapper.Proofs.Merge.Braces
import TableMapper.Proofs.Merge.HandWritten

/-!
# Source files with several types

A source file has a front with its package and imports, and one or more types
behind it, each with a heading and a body in braces (`SourceFile`). The
declaration that is read from such a file is that of its first type, and
**the body that is read is closed inside the text of that type**
(`SourceFile.exists_declared`), whatever follows. A written file has no
second type (`JavaUnit.HasOneType`).
-/

namespace TableMapper

namespace Source

section

variable {source rest : Source} {found : Declaration}

/-! ## The name declared -/

/-- **The name of the first declaration**: the characters of names that stand
in front of what follows it. -/
def declaredName (source : Source) : Option (List Char) :=
  (findDeclaration [] source).map fun found =>
    ((source.codes.take (source.length - found.rest.length)).reverse.takeWhile isNamePart).reverse

theorem exists_of_behindName (h : behindName source = some rest) :
    ∃ name, source = name ++ rest ∧ IsDeclarable name.codes := by
  cases source with
  | nil => exact absurd h (by simp [behindName])
  | cons c source =>
    rw [behindName] at h
    split at h
    next hstart =>
      have hrest := Option.some.inj h
      refine ⟨c :: source.takeWhile fun d => isNamePart d.code, ?_, c.code, _, rfl, hstart, ?_⟩
      · rw [← hrest, List.cons_append, List.takeWhile_append_dropWhile]
      · exact List.forall_mem_map.2 fun d hd => (List.mem_takeWhile_imp hd :)
    · exact absurd h (by simp)

theorem exists_of_behindBlanks (h : behindBlanks source = some rest) :
    ∃ blanks blank, source = blanks ++ blank :: rest ∧ Text.isBlank blank.code = true := by
  cases source with
  | nil => exact absurd h (by simp [behindBlanks])
  | cons c source =>
    rw [behindBlanks] at h
    split at h
    next hc =>
      have hrest := Option.some.inj h
      have hcut := List.takeWhile_append_dropWhile
        (p := fun d : SourceChar => Text.isBlank d.code) (l := source)
      cases hlast : (source.takeWhile fun d => Text.isBlank d.code).getLast? with
      | none =>
        rw [List.getLast?_eq_none_iff.1 hlast, hrest] at hcut
        exact ⟨[], c, by rw [← hcut]; rfl, hc⟩
      | some d =>
        obtain ⟨front, hfront⟩ := List.getLast?_eq_some_iff.1 hlast
        rw [hfront, hrest] at hcut
        refine ⟨c :: front, d, by rw [← hcut]; simp, ?_⟩
        have hmem : d ∈ source.takeWhile fun d => Text.isBlank d.code := hfront ▸ by simp
        exact (List.mem_takeWhile_imp hmem :)
    · exact absurd h (by simp)

theorem exists_of_declarationAt_eq {wordBefore : Bool} {found : DeclaredKind × Source}
    (h : declarationAt wordBefore source = some found) :
    ∃ front blank name, source = front ++ blank :: (name ++ found.2) ∧
    Text.isBlank blank.code = true ∧
      IsDeclarable name.codes := by
  obtain ⟨kind, -, hkind⟩ := List.exists_of_findSome?_eq_some h
  split at hkind
  · obtain ⟨behind, hbehind, hfound⟩ := Option.bind_eq_some_iff.1 hkind
    obtain ⟨word, hword, hblanks⟩ := Option.bind_eq_some_iff.1 hbehind
    obtain ⟨rest, hrest, rfl⟩ := Option.map_eq_some_iff.1 hfound
    obtain ⟨front, rfl⟩ := behindWord_suffix hword
    obtain ⟨blanks, blank, rfl, hblank⟩ := exists_of_behindBlanks hblanks
    obtain ⟨name, rfl, hname⟩ := exists_of_behindName hrest
    exact ⟨front ++ blanks, blank, name, by simp, hblank, hname⟩
  · exact absurd hkind (by simp)

/-- **A declaration ends with a blank and a name.** -/
theorem exists_name_of_findDeclaration {before : Source}
    (h : findDeclaration before source = some found) :
    ∃ front blank name, source = front ++ blank :: (name ++ found.rest) ∧
    Text.isBlank blank.code = true ∧
      IsDeclarable name.codes := by
  induction source generalizing before with
  | nil => exact absurd h (by simp [findDeclaration])
  | cons c source ih =>
    cases hat : declarationAt (before.head?.any fun d => Text.isWordChar d.code) (c :: source) with
    | some pair =>
      rw [findDeclaration_cons_of_some hat] at h
      rw [← Option.some.inj h]
      exact exists_of_declarationAt_eq hat
    | none =>
      rw [findDeclaration_cons_of_none hat] at h
      obtain ⟨front, blank, name, rfl, hblank, hname⟩ := ih h
      exact ⟨c :: front, blank, name, rfl, hblank, hname⟩

theorem isNamePart_of_isBlank {c : Char} (h : Text.isBlank c = true) : isNamePart c = false := by
  rw [isNamePart, isWordChar_of_isBlank h, Bool.false_or]
  rw [beq_eq_false_iff_ne]
  rintro rfl
  exact absurd h (by decide)

/-- **The name declared**, given where it stands. -/
theorem declaredName_eq {front name : Source} {blank : SourceChar}
    (hfound : findDeclaration [] source = some found)
    (hsource : source = front ++ blank :: (name ++ found.rest))
    (hblank : Text.isBlank blank.code = true)
    (hname : IsDeclarable name.codes) : declaredName source = some name.codes := by
  have htake : source.codes.take (source.length - found.rest.length)
      = front.codes ++ blank.code :: name.codes := by
    have hcodes : source.codes = (front.codes ++ blank.code :: name.codes) ++ found.rest.codes := by
      rw [hsource]
      simp
    have hlength : source.length - found.rest.length
        = (front.codes ++ blank.code :: name.codes).length := by
      rw [hsource]
      simp only [codes, List.length_append, List.length_cons, List.length_map]
      omega
    rw [hcodes, hlength, List.take_left]
  have hcodes : ∀ c ∈ name.codes.reverse, isNamePart c = true :=
    fun c hc => hname.isNamePart c (List.mem_reverse.1 hc)
  rw [declaredName, hfound, Option.map_some, htake, List.reverse_append, List.reverse_cons,
    List.append_assoc, List.takeWhile_append_of_pos hcodes, List.singleton_append,
    List.takeWhile_cons_of_neg (by simp [isNamePart_of_isBlank hblank]),
    List.append_nil, List.reverse_reverse]

/-- **The name declared is one that can be declared.** -/
theorem isDeclarable_of_declaredName {name : List Char} (h : declaredName source = some name) :
    IsDeclarable name := by
  obtain ⟨found, hfound, -⟩ := Option.map_eq_some_iff.1 h
  obtain ⟨front, blank, found', hsource, hblank, hdeclarable⟩ :=
    exists_name_of_findDeclaration hfound
  rw [declaredName_eq hfound hsource hblank hdeclarable] at h
  rwa [← Option.some.inj h]

/-! ## A declaration behind other text -/

/-- What stands in front of a part is put in front of the declaration found
in it, unless a word goes on there. -/
theorem findDeclaration_front {before : Source}
    (h : ∀ c ∈ before.head?, Text.isWordChar c.code = false)
    (front source : Source) :
    findDeclaration (front ++ before) source
      = (findDeclaration front source).map fun found =>
          { found with prelude := before.reverse ++ found.prelude } := by
  induction source generalizing front with
  | nil => rfl
  | cons c source ih =>
    have hhead : ((front ++ before).head?.any fun d => Text.isWordChar d.code)
        = front.head?.any fun d => Text.isWordChar d.code := by
      cases front with
      | nil =>
        cases hbefore : before.head? with
        | none => simp [hbefore]
        | some d => simp [hbefore, h d hbefore]
      | cons d front => rfl
    cases hat : declarationAt (front.head?.any fun d => Text.isWordChar d.code) (c :: source) with
    | some pair =>
      rw [findDeclaration_cons_of_some hat, findDeclaration_cons_of_some (by rw [hhead]; exact hat)]
      simp
    | none =>
      rw [findDeclaration_cons_of_none hat, findDeclaration_cons_of_none (by rw [hhead]; exact hat)]
      exact ih (c :: front)

theorem findDeclaration_idle {front : Source} (hidle : Idle front)
    (hlast : ∀ c ∈ front.getLast?, Text.isWordChar c.code = false)
    (hfound : findDeclaration [] source = some found) :
    findDeclaration [] (front ++ source)
      = some { found with prelude := front ++ found.prelude } := by
  rw [hidle, List.append_nil, ← List.nil_append front.reverse,
    findDeclaration_front (by simpa using hlast), hfound, List.reverse_reverse]
  rfl

/-! ## The body of the first type -/

/-- **The first brace behind a declaration is closed** in front of the end of
the body behind the heading, or with it. -/
theorem exists_inner {body : Source} {opening closing : SourceChar}
    (hfound : findDeclaration [] source = some found) (hsource : Nested source)
    (hbody : Nested body) (hopening : opening.code = '\x7b') (hclosing : closing.code = '\x7d') :
    ∃ header brace inner close more, found.rest ++ opening :: (body ++ [closing])
        = header ++ brace :: (inner ++ close :: more) ∧
      (∀ c ∈ header, c.code ≠ '\x7b') ∧ brace.code = '\x7b' ∧ Nested inner ∧
      close.code = '\x7d' := by
  have hcut := List.takeWhile_append_dropWhile (p := fun c : SourceChar => c.code != '\x7b')
    (l := found.rest)
  have hheader : ∀ c ∈ found.rest.takeWhile fun c => c.code != '\x7b', c.code ≠ '\x7b' := by
    intro c hc
    simpa using List.mem_takeWhile_imp hc
  cases hdrop : found.rest.dropWhile fun c : SourceChar => c.code != '\x7b' with
  | nil =>
    rw [hdrop, List.append_nil] at hcut
    rw [hcut] at hheader
    exact ⟨found.rest, opening, body, closing, [], rfl, hheader, hopening, hbody, hclosing⟩
  | cons brace more =>
    have hbrace : brace.code = '\x7b' := by
      have hhead := List.head?_dropWhile_not (fun c : SourceChar => c.code != '\x7b') found.rest
      rw [hdrop] at hhead
      simpa using hhead
    -- the heading is nested, so what is opened in it is closed in it
    obtain ⟨front, hfront⟩ := findDeclaration_suffix hfound
    rw [← hcut, hdrop, ← List.append_assoc] at hfront
    rw [← hfront, Nested, depthAfter_append] at hsource
    obtain ⟨depth, -, hdepth⟩ := Option.bind_eq_some_iff.1 hsource
    rw [depthAfter_open hbrace] at hdepth
    obtain ⟨inner, close, rest, rfl, hclose, hinner⟩ :=
      exists_close (show depthAfter (depth + 1 + 0) more = some 0 from hdepth) (Nat.zero_le depth)
    refine ⟨_, brace, inner, close, rest ++ opening :: (body ++ [closing]), ?_, hheader,
      hbrace, hinner, hclose⟩
    conv_lhs => rw [← hcut, hdrop]
    simp

end

end Source

/-! ## Types and files -/

/-- **A type as it stands in a file**: comments, annotations, modifiers and
the declaration itself, and behind it the body in braces. -/
structure SourceType where
  heading : String
  body : String
deriving Repr, DecidableEq

/-- A file with its package and imports, the types and what follows them. -/
structure SourceFile where
  front : String
  types : List SourceType
  tail : String
deriving Repr, DecidableEq

namespace SourceType

def text (t : SourceType) : String :=
  t.heading ++ "\x7b" ++ t.body ++ "\x7d"

/-- The name of the type. -/
def name (t : SourceType) : Option (List Char) :=
  Source.declaredName (Source.ofText t.heading)

/-- **A declaration of a type**, in which comments, literals and braces are
closed. -/
structure IsType (t : SourceType) : Prop where
  heading : Source.Whole t.heading.toList
  body : Source.Whole t.body.toList
  declares : t.name ≠ none

end SourceType

namespace SourceFile

def text (f : SourceFile) : String :=
  f.front ++ String.join (f.types.map (·.text)) ++ f.tail

/-- **A file that consists of a front without declarations, types, and
comments behind them.** -/
structure IsFile (f : SourceFile) : Prop where
  settled : Source.Settled f.front.toList
  idle : Source.Idle (Source.ofText f.front)
  /-- No word goes on behind the front. -/
  separate : ∀ c ∈ (Source.ofText f.front).getLast?, Text.isWordChar c.code = false
  types_ne_nil : f.types ≠ []
  types : ∀ t ∈ f.types, t.IsType
  tail : ∀ c ∈ Source.ofText f.tail, Text.isBlank c.code = true

end SourceFile

open Source

section

variable {f : SourceFile} {t : SourceType} {types : List SourceType}

/-! ## A file, marked -/

/-- A type, marked by itself. -/
def SourceType.source (t : SourceType) : Source :=
  ofText t.heading ++ shown '\x7b' :: (ofText t.body ++ [shown '\x7d'])

theorem SourceType.IsType.markFrom_text (h : t.IsType) (behind : List Char) :
    markFrom .code (t.text.toList ++ behind) = t.source ++ markFrom .code behind := by
  have htext : t.text.toList ++ behind
      = t.heading.toList ++ '\x7b' :: (t.body.toList ++ '\x7d' :: behind) := by
    simp [text]
  rw [htext, h.heading.settled, markFrom_plain (by decide), h.body.settled,
    markFrom_plain (by decide), source]
  simp [ofText]

theorem markFrom_types (h : ∀ t ∈ types, t.IsType) (behind : List Char) :
    markFrom .code ((String.join (types.map (·.text))).toList ++ behind)
      = types.flatMap (·.source) ++ markFrom .code behind := by
  induction types with
  | nil => rfl
  | cons t types ih =>
    rw [List.map_cons, String.join_cons, String.toList_append, List.append_assoc,
      (h t List.mem_cons_self).markFrom_text, ih fun other hother =>
      h other (List.mem_cons_of_mem t hother), List.flatMap_cons, List.append_assoc]

/-- **A file is marked part by part.** -/
theorem SourceFile.IsFile.ofText_text (h : f.IsFile) :
    ofText f.text = ofText f.front ++ (f.types.flatMap (·.source) ++ ofText f.tail) := by
  rw [ofText, SourceFile.text, String.toList_append, String.toList_append, List.append_assoc,
    h.settled, markFrom_types h.types]
  rfl

/-- **What is read from a file is read from its first type**, of which the
body is closed in front of whatever follows. -/
theorem SourceType.IsType.exists_declared (h : t.IsType) {front : Source} (hidle : Idle front)
    (hlast : ∀ c ∈ front.getLast?, Text.isWordChar c.code = false) :
    ∃ (old : Declared) (inner : Source) (close : SourceChar) (more : Source),
      Nested inner ∧ close.code = '\x7d' ∧ ∀ behind,
        declaredName (front ++ (t.source ++ behind)) = t.name ∧
        Declared.ofSource? (front ++ (t.source ++ behind))
          = some { old with body := inner ++ close :: (more ++ behind) } := by
  obtain ⟨found, hfound⟩ : ∃ found, findDeclaration [] (ofText t.heading) = some found := by
    rw [← Option.ne_none_iff_exists']
    intro hnone
    exact h.declares (by rw [SourceType.name, declaredName, hnone]; rfl)
  obtain ⟨header, brace, inner, close, more, hrest, hheader, hbrace, hinner, hclose⟩ :=
    exists_inner hfound h.heading.nested h.body.nested (show (shown '\x7b').code = '\x7b' from rfl)
      (show (shown '\x7d').code = '\x7d' from rfl)
  have hwhole := findDeclaration_idle hidle hlast hfound
  refine ⟨Declared.ofDeclaration { found with prelude := front ++ found.prelude } header [], inner,
    close, more, hinner, hclose, fun behind => ?_⟩
  have hcut : front ++ (t.source ++ behind)
      = front ++ ofText t.heading ++ shown '\x7b' :: (ofText t.body ++ shown '\x7d' :: behind) := by
    simp [SourceType.source]
  have hat : findDeclaration [] (front ++ (t.source ++ behind)) = some
      { found with
        prelude := front ++ found.prelude
        rest := found.rest ++ shown '\x7b' :: (ofText t.body ++ shown '\x7d' :: behind) } := by
    rw [hcut, findDeclaration_append rfl, hwhole]
  constructor
  · obtain ⟨stem, blank, name, hheading, hblank, hname⟩ := exists_name_of_findDeclaration hfound
    rw [SourceType.name, declaredName_eq hfound hheading hblank hname]
    refine declaredName_eq hat
      (show _ = (front ++ stem) ++ blank :: (name ++ _) from ?_) hblank hname
    rw [hcut]
    conv_lhs => rw [hheading]
    simp
  · refine Declared.ofSource?_eq_some_iff.2
      ⟨_, header, brace, inner ++ close :: (more ++ behind), hat, ?_, hheader,
      hbrace, rfl⟩
    have hall := congrArg (· ++ behind) hrest
    simpa [ofText] using hall

end

namespace JavaUnit

/-! ## A written file has one type -/

/-- The identifier of the type that a unit declares. -/
def declaredName (u : JavaUnit) : List Char :=
  u.type.shortName.toList.takeWhile isNamePart

/-- **The only type of a file**, however it is cut into types, is called by
the name. -/
def HasOneType (text : String) (name : List Char) : Prop :=
  ∀ f : SourceFile, f.IsFile → f.text = text → ∃ t, f.types = [t] ∧ t.name = some name

section

variable {w : JavaUnit} {texts : List String}

theorem whole_intercalate (h : ∀ text ∈ texts, Whole text.toList) :
    Whole ("\n".intercalate texts).toList := by
  induction texts with
  | nil => exact whole_nil
  | cons text texts ih =>
    obtain ⟨blanks, hblanks, hcons⟩ := exists_intercalate_cons text texts
    rw [hcons]
    exact (h text List.mem_cons_self).append ((whole_of_blank hblanks).append
      (ih fun other hother => h other (List.mem_cons_of_mem text hother)))

/-- **The name that is read** from a written file. -/
theorem Solid.declaredName_render (h : w.Solid) {name tail : List Char} (hname : IsDeclarable name)
    (htail : ∀ c ∈ tail, isInert c = true) (hend : ∀ c ∈ tail.head?, isNamePart c = false)
    (hshort : w.type.shortName.toList = name ++ tail) : Source.declaredName (ofText w.render)
      = some name := by
  have hread := declaredName_eq (h.findDeclaration_render hname htail hend hshort)
    (show ofText w.render = (w.preludeSource ++ w.kind.keyword.toList.map shown) ++
      shown ' ' :: (name.map shown ++
        ((tail ++ (w.clausesText ++ [' '])).map shown ++ shown '\x7b' ::
          markFrom .code w.bodyText)) by
      rw [h.ofText_render hname htail hshort]
      simp)
    (by decide) (by rwa [codes_map_shown])
  rwa [codes_map_shown] at hread

theorem Legible.declaredName_render (h : w.Legible) :
    Source.declaredName (ofText w.render) = some w.declaredName := by
  obtain ⟨name, hname, htail, hshort⟩ := h.exists_name
  have hend := isNamePart_tail htail
  have hread := h.solid.declaredName_render hname.isDeclarable
    (fun c hc => (h.headerText_plain c (List.mem_append_left _ hc)).1) hend hshort
  have hnone : (w.type.shortName.toList.dropWhile isNameChar).takeWhile isNamePart = [] := by
    generalize w.type.shortName.toList.dropWhile isNameChar = tail at hend
    cases tail with
    | nil => rfl
    | cons c tail => exact List.takeWhile_cons_of_neg (by simp [hend c rfl])
  rw [hread, declaredName, hshort, List.takeWhile_append_of_pos hname.isDeclarable.isNamePart,
    hnone, List.append_nil]

/-- **A written file has no second type**, if everything is closed in its
members. -/
theorem Legible.hasOneType_render (h : w.Legible)
    (hmembers : ∀ text ∈ w.memberTexts, Whole text.toList) :
    HasOneType w.render w.declaredName := by
  intro f hf hrender
  have hbody : ∃ inner, Nested inner ∧
      markFrom .code w.bodyText = inner ++ shown '\x7d' :: [shown '\n'] := by
    have hwhole : Whole ('\n' :: ("\n".intercalate w.memberTexts).toList) :=
      (whole_of_blank (show Text.Blank ['\n'] by decide)).append (whole_intercalate hmembers)
    refine ⟨_, hwhole.nested, ?_⟩
    rw [bodyText, ← List.append_assoc, List.singleton_append, hwhole.settled]
    rfl
  obtain ⟨inner, hinner, hbody⟩ := hbody
  obtain ⟨t, types, htypes⟩ := List.exists_cons_of_ne_nil hf.types_ne_nil
  obtain ⟨old, inner', close, more, hinner', hclose, hread⟩ :=
    (hf.types t (htypes ▸ List.mem_cons_self)).exists_declared hf.idle hf.separate
  obtain ⟨hname, hdeclared⟩ := hread (types.flatMap (·.source) ++ ofText f.tail)
  rw [← List.append_assoc t.source, ← List.flatMap_cons, ← htypes, ← hf.ofText_text, hrender]
    at hname hdeclared
  rw [h.ofSource?_render] at hdeclared
  -- both bodies end at the same brace, and only the end of the line is behind it
  have hsame := congrArg Declared.body (Option.some.inj hdeclared)
  rw [show w.declared.body = _ from hbody] at hsame
  obtain ⟨-, hbehind⟩ := hinner.append_cons_inj hinner' rfl hclose hsame
  have hnone : shown '\x7b' ∉ more ++ (types.flatMap (·.source) ++ ofText f.tail) := by
    rw [← hbehind]
    decide
  refine ⟨t, ?_, by rw [← hname, h.declaredName_render]⟩
  cases types with
  | nil => exact htypes
  | cons other types =>
    refine absurd ?_ hnone
    simp [SourceType.source]

end

end JavaUnit

end TableMapper
