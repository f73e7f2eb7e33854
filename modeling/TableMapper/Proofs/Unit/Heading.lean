import Mathlib.Data.List.TakeWhile
import TableMapper.Proofs.Unit.Marking
import TableMapper.Unit.Declared

/-!
# The heading of a source file

What is read from a source file besides its members stands in front of the
brace that opens the type body. **The heading is decided in front of that
brace** (`exists_heading`): no brace is part of a keyword, a blank or a
name, so what follows it may be anything and the declaration stays the
same.
-/

namespace TableMapper.Source

section

variable {front behind : Source} {c : SourceChar}

/-! ## Words, blanks and names in front of a brace -/

theorem isPrefixOf_append_cons {word cs : List Char} {d : Char} (h : d ∉ word) (ds : List Char) :
    word.isPrefixOf (cs ++ d :: ds) = word.isPrefixOf cs := by
  induction word generalizing cs with
  | nil => simp
  | cons e word ih =>
    have he : e ≠ d := fun heq => h (heq ▸ List.mem_cons_self)
    have hword : d ∉ word := fun hmem => h (List.mem_cons_of_mem e hmem)
    cases cs with
    | nil => simp [List.isPrefixOf, he]
    | cons f cs => rw [List.cons_append, List.isPrefixOf, List.isPrefixOf, ih hword]

theorem dropWhile_append_cons {α : Type} (p : α → Bool) {x : α} (h : p x = false) (xs ys : List α) :
    (xs ++ x :: ys).dropWhile p = xs.dropWhile p ++ x :: ys := by
  induction xs with
  | nil => simp [h]
  | cons y xs ih =>
    rw [List.cons_append, List.dropWhile_cons, List.dropWhile_cons, ih]
    split <;> rfl

theorem behindWord_append {word : List Char} (hword : c.code ∉ word) :
    behindWord word (front ++ c :: behind) = (behindWord word front).map (· ++ c :: behind) := by
  rw [behindWord, behindWord, codes_append, codes_cons, isPrefixOf_append_cons hword]
  split
  next hbegins =>
    have hlength := (List.isPrefixOf_iff_prefix.1 hbegins).length_le
    rw [codes, List.length_map] at hlength
    rw [List.drop_append_of_le_length hlength]
    rfl
  · rfl

theorem behindBlanks_append (hc : Text.isBlank c.code = false) :
    behindBlanks (front ++ c :: behind) = (behindBlanks front).map (· ++ c :: behind) := by
  cases front with
  | nil =>
    simp [behindBlanks, hc]
  | cons d front =>
    rw [List.cons_append, behindBlanks, behindBlanks]
    split
    · rw [dropWhile_append_cons (fun d : SourceChar => Text.isBlank d.code) hc]
      rfl
    · rfl

theorem behindName_append (hstart : isNameStart c.code = false)
    (hpart : isNamePart c.code = false) :
    behindName (front ++ c :: behind) = (behindName front).map (· ++ c :: behind) := by
  cases front with
  | nil =>
    simp [behindName, hstart]
  | cons d front =>
    rw [List.cons_append, behindName, behindName]
    split
    · rw [dropWhile_append_cons (fun d : SourceChar => isNamePart d.code) hpart]
      rfl
    · rfl

/-! ## The declaration in front of a brace -/

theorem declarationAt_append (hc : c.code = '\x7b') (wordBefore : Bool) (front behind : Source) :
    declarationAt wordBefore (front ++ c :: behind)
      = (declarationAt wordBefore front).map fun found => (found.1, found.2 ++ c :: behind) := by
  have hblank : Text.isBlank c.code = false := by
    rw [hc]
    decide
  have hstart : isNameStart c.code = false := by
    rw [hc]
    decide
  have hpart : isNamePart c.code = false := by
    rw [hc]
    decide
  rw [declarationAt, declarationAt, List.map_findSome?]
  congr 1
  funext kind
  have hword : c.code ∉ kind.keyword.toList := by
    rw [hc]
    cases kind <;> decide
  rw [Function.comp_apply]
  split
  · rw [behindWord_append hword]
    cases behindWord kind.keyword.toList front with
    | none => rfl
    | some blanks =>
      simp only [Option.map_some, Option.bind_some]
      rw [behindBlanks_append hblank]
      cases behindBlanks blanks with
      | none => rfl
      | some name =>
        simp only [Option.map_some, Option.bind_some]
        rw [behindName_append hstart hpart, Option.map_map, Option.map_map]
        rfl
  · rfl

/-- The search goes on behind a place where no declaration begins. -/
theorem findDeclaration_cons_of_none {before : Source}
    (h : declarationAt (before.head?.any fun d => Text.isWordChar d.code) (c :: behind) = none) :
    findDeclaration before (c :: behind) = findDeclaration (c :: before) behind := by
  rw [findDeclaration]
  simp only [h]

theorem findDeclaration_cons_of_some {before : Source} {found : DeclaredKind × Source}
    (h : declarationAt (before.head?.any fun d => Text.isWordChar d.code)
      (c :: behind) = some found) :
    findDeclaration before (c :: behind) = some ⟨found.1, before.reverse, found.2⟩ := by
  rw [findDeclaration]
  simp only [h]

/-- **A brace ends the search for a declaration in front of it**, or the
search goes on behind it. -/
theorem findDeclaration_append (hc : c.code = '\x7b') (before : Source) :
    findDeclaration before (front ++ c :: behind)
      = match findDeclaration before front with
        | some found => some { found with rest := found.rest ++ c :: behind }
        | none => findDeclaration (c :: (front.reverse ++ before)) behind := by
  induction front generalizing before with
  | nil =>
    refine findDeclaration_cons_of_none ?_
    rw [← List.nil_append (c :: behind), declarationAt_append hc]
    cases before.head?.any fun d => Text.isWordChar d.code <;> rfl
  | cons d front ih =>
    have hat := declarationAt_append hc (before.head?.any fun d => Text.isWordChar d.code)
      (d :: front) behind
    rw [List.cons_append] at hat ⊢
    cases hfront : declarationAt (before.head?.any fun d => Text.isWordChar d.code)
      (d :: front) with
    | some found =>
      rw [hfront] at hat
      rw [findDeclaration_cons_of_some hat, findDeclaration_cons_of_some hfront]
    | none =>
      rw [hfront] at hat
      rw [findDeclaration_cons_of_none hat, findDeclaration_cons_of_none hfront, ih,
        List.reverse_cons, List.append_assoc]
      rfl

end

/-! ## The heading -/

theorem behindWord_suffix {word : List Char} {source rest : Source}
    (h : behindWord word source = some rest) : rest <:+ source := by
  unfold behindWord at h
  split at h
  · rw [← Option.some.inj h]
    exact List.drop_suffix _ _
  · simp at h

theorem behindBlanks_suffix {source rest : Source} (h : behindBlanks source = some rest) :
    rest <:+ source := by
  unfold behindBlanks at h
  split at h
  · simp at h
  · split at h
    · rw [← Option.some.inj h]
      exact (List.dropWhile_suffix _).trans (List.suffix_cons _ _)
    · simp at h

theorem behindName_suffix {source rest : Source} (h : behindName source = some rest) :
    rest <:+ source := by
  unfold behindName at h
  split at h
  · simp at h
  · split at h
    · rw [← Option.some.inj h]
      exact (List.dropWhile_suffix _).trans (List.suffix_cons _ _)
    · simp at h

theorem declarationAt_suffix {wordBefore : Bool} {source : Source} {found : DeclaredKind × Source}
    (h : declarationAt wordBefore source = some found) : found.2 <:+ source := by
  obtain ⟨kind, -, hkind⟩ := List.exists_of_findSome?_eq_some h
  split at hkind
  · obtain ⟨name, hname, hfound⟩ := Option.bind_eq_some_iff.1 hkind
    obtain ⟨word, hword, hblanks⟩ := Option.bind_eq_some_iff.1 hname
    obtain ⟨rest, hrest, rfl⟩ := Option.map_eq_some_iff.1 hfound
    exact (behindName_suffix hrest).trans
      ((behindBlanks_suffix hblanks).trans (behindWord_suffix hword))
  · simp at hkind

/-- What follows a declaration ends the text it was found in. -/
theorem findDeclaration_suffix {before source : Source} {found : Declaration}
    (h : findDeclaration before source = some found) : found.rest <:+ source := by
  induction source generalizing before with
  | nil => simp [findDeclaration] at h
  | cons c source ih =>
    cases hat : declarationAt (before.head?.any fun d => Text.isWordChar d.code) (c :: source) with
    | some pair =>
      rw [findDeclaration_cons_of_some hat] at h
      rw [← Option.some.inj h]
      exact declarationAt_suffix hat
    | none =>
      rw [findDeclaration_cons_of_none hat] at h
      exact (ih h).trans (List.suffix_cons _ _)

end TableMapper.Source

namespace TableMapper

/-- **What is read from a declaration and its header**, given what follows
the brace behind the header. -/
def Declared.ofDeclaration (found : Source.Declaration) (header body : Source) : Declared :=
  let clauses := Source.clauses header.blanked
  let imported := Source.importsFrom true found.prelude
  let behindPrelude := (imported.2.or (Source.behindPackage found.prelude)).getD found.prelude
  { kind := found.kind
    superclass := if found.kind = .interface then none else clauses.extends?.head?
    superInterfaces := if found.kind = .interface then clauses.extends? else clauses.implements
    imports := imported.1
    annotations := (Source.marksFrom 0 behindPrelude).map (·.text)
    body }

/-- **When a file has a declaration with a body**, and what is read from it. -/
theorem Declared.ofSource?_eq_some_iff {source : Source} {old : Declared} :
    ofSource? source = some old ↔
      ∃ found header brace body, Source.findDeclaration [] source = some found ∧
        found.rest = header ++ brace :: body ∧ (∀ c ∈ header, c.code ≠ '\x7b') ∧
        brace.code = '\x7b' ∧ old = ofDeclaration found header body := by
  unfold ofSource?
  cases hfound : Source.findDeclaration [] source with
  | none => simp
  | some found =>
    simp only [Option.bind_eq_bind, Option.bind_some]
    -- the header is cut off at the first brace behind the declaration
    have hcut := List.takeWhile_append_dropWhile (p := fun c : SourceChar => c.code != '\x7b')
      (l := found.rest)
    constructor
    · intro h
      split at h
      · simp at h
      next brace body hdrop =>
        rw [hdrop] at hcut
        refine ⟨found, _, brace, body, rfl, hcut.symm, ?_, ?_, (Option.some.inj h).symm⟩
        · intro c hc
          simpa using List.mem_takeWhile_imp hc
        · have hhead := List.head?_dropWhile_not (fun c : SourceChar => c.code != '\x7b') found.rest
          rw [hdrop] at hhead
          simpa using hhead
    · rintro ⟨_, header, brace, body, ⟨⟩, hrest, hheader, hbrace, rfl⟩
      have hpass : ∀ c ∈ header, (c.code != '\x7b') = true :=
        fun c hc => by simpa using hheader c hc
      have htake : found.rest.takeWhile (fun c => c.code != '\x7b') = header := by
        rw [hrest, List.takeWhile_append_of_pos hpass,
          List.takeWhile_cons_of_neg (by simp [hbrace]), List.append_nil]
      have hdrop : found.rest.dropWhile (fun c => c.code != '\x7b') = brace :: body := by
        rw [hrest, List.dropWhile_append_of_pos hpass,
          List.dropWhile_cons_of_neg (by simp [hbrace])]
      simp only [hdrop, htake]
      rfl

/-- **The heading of a file is decided in front of the brace behind it**: it
is the same whatever the body. -/
theorem Declared.exists_heading {source : Source} {old : Declared}
    (h : ofSource? source = some old) :
    ∃ heading brace, source = heading ++ brace :: old.body ∧ brace.code = '\x7b' ∧
      ∀ body, ofSource? (heading ++ brace :: body) = some { old with body } := by
  obtain ⟨found, header, brace, body, hfound, hrest, hheader, hbrace, rfl⟩ :=
    ofSource?_eq_some_iff.1 h
  obtain ⟨front, hfront⟩ := Source.findDeclaration_suffix hfound
  rw [hrest] at hfront
  have hsource : source = (front ++ header) ++ brace :: body := by
    rw [← hfront, List.append_assoc]
  -- the brace is the first one behind the declaration, so the search ended in front of it
  have hheading : ∃ front', Source.findDeclaration [] (front ++ header) = some front' ∧
      front'.kind = found.kind ∧ front'.prelude = found.prelude ∧ front'.rest = header := by
    rw [hsource, Source.findDeclaration_append hbrace] at hfound
    cases hnone : Source.findDeclaration [] (front ++ header) with
    | some front' =>
      rw [hnone] at hfound
      obtain rfl := Option.some.inj hfound
      exact ⟨front', rfl, rfl, rfl, List.append_cancel_right hrest⟩
    | none =>
      rw [hnone] at hfound
      have hlength := (Source.findDeclaration_suffix hfound).length_le
      rw [hrest, List.length_append, List.length_cons] at hlength
      omega
  obtain ⟨front', hfront', hkind, hprelude, hrest'⟩ := hheading
  refine ⟨front ++ header, brace, hsource, hbrace, fun body' => ?_⟩
  refine ofSource?_eq_some_iff.2
    ⟨{ found with rest := header ++ brace :: body' }, header, brace, body',
    ?_, rfl, hheader, hbrace, rfl⟩
  rw [Source.findDeclaration_append hbrace, hfront']
  simp only [hkind, hprelude, hrest']

end TableMapper
