import TableMapper.Merge.Unit
import TableMapper.Proofs.Merge.BodySlices
import TableMapper.Proofs.Unit.Clauses

/-!
# Merging by byte offsets

A merge masks the bytes of the existing file, looks for everything in the
masked text, and cuts both texts at the places found. Whether the places fit
is another question for every text: a comment may end in the middle of the
header, a bracket may stay open, a backslash may stand in front of any
character. Here the merge is made with checked slices, and its result is
`none` if a slice does not exist (`JavaUnit.mergeAt?`). **All slices exist,
whatever the existing text is**, and the result is that of the merge, a text
or the reason why nothing is merged (`JavaUnit.mergeAt?_total`).
-/

namespace TableMapper

open Text

namespace Source

variable {whole front part rest behind : Source} {c : SourceChar} {header prelude word : List Char}

/-! ## Characters and words of the masked text -/

/-- **A character is found in the masked text where it is in the file.** -/
theorem find?_blanked {d : Char} {source : Source} (hd : d ≠ ' ')
    (h : source.dropWhile (fun c => c.code != d) = c :: behind) :
    source = source.takeWhile (fun c => c.code != d) ++ shown d :: behind ∧
      find? (· == d) source.blanked
        = some (byteLength (chars (source.takeWhile fun c => c.code != d))) := by
  have hcode := List.head?_dropWhile_not (fun c : SourceChar => c.code != d) source
  have hcut := List.takeWhile_append_dropWhile
    (p := fun c : SourceChar => c.code != d) (l := source)
  rw [h] at hcode hcut
  obtain rfl := eq_shown_of_code (c := c) (d := d) (by simpa using hcode) hd
  refine ⟨hcut.symm, ?_⟩
  rw [find?_eq_some ((dropWhile_blanked (!· == d) source).trans (congrArg blanked h)),
    takeWhile_blanked, byteLength_blanked]
  rfl

theorem find?_blanked_eq_none {d : Char} {source : Source}
    (h : source.dropWhile (fun c => c.code != d) = []) :
    find? (· == d) source.blanked = none :=
  find?_eq_none ((dropWhile_blanked (!· == d) source).trans (congrArg blanked h))

theorem isPrefixOf_blanked (word : List Char) (h : ' ' ∉ word) (source : Source) :
    word.isPrefixOf source.blanked = (behindWord word source).isSome := by
  rw [(stretches_blanked source).isPrefixOf h, behindWord]
  split
  next hbegins => exact hbegins
  next hbegins => exact Bool.eq_false_iff.2 hbegins

/-! ## The package line -/

/-- The place behind the package line. -/
def packageEnd? (prelude : List Char) : Option (Option Nat) :=
  match findText? "package".toList prelude with
  | none => some none
  | some place => do
    let line ← from? place prelude
    return (find? (· == ';') line).map (place + · + 1)

/-- Where nothing is passed that the word begins in, its place moves on. -/
theorem packageEnd?_append {passed cs : List Char}
    (h : splitOnce "package".toList (passed ++ cs)
      = (splitOnce "package".toList cs).map fun found => (passed ++ found.1, found.2)) :
    packageEnd? (passed ++ cs) = (packageEnd? cs).map (·.map (byteLength passed + ·)) := by
  rw [packageEnd?, packageEnd?, findText?, findText?, h]
  cases hsplit : splitOnce "package".toList cs with
  | none => rfl
  | some found =>
    have hcs := eq_of_splitOnce hsplit
    have hline : from? (byteLength found.1) cs = some ("package".toList ++ found.2) := by
      rw [hcs]
      exact from?_append _ _
    have hpassed : from? (byteLength (passed ++ found.1)) (passed ++ cs)
        = some ("package".toList ++ found.2) := by
      rw [hcs, ← List.append_assoc]
      exact from?_append _ _
    simp only [Option.map_some, hline, hpassed]
    show some (Option.map _ _) = some (Option.map _ (Option.map _ _))
    rw [Option.map_map, byteLength_append]
    simp only [Function.comp_def, Nat.add_assoc]

theorem packageEnd?_of_isPrefixOf {cs : List Char} (h : "package".toList.isPrefixOf cs = true) :
    packageEnd? cs = some ((find? (· == ';') cs).map (· + 1)) := by
  have hplace : findText? "package".toList cs = some 0 := by
    obtain ⟨behind, rfl⟩ := List.isPrefixOf_iff_prefix.1 h
    rfl
  have hline : from? 0 cs = some cs := from?_append [] cs
  rw [packageEnd?, hplace]
  simp only [hline, Option.bind_eq_bind, Option.bind_some, Nat.zero_add]
  rfl

theorem packageEnd?_cons {source : Source} (h : behindWord "package".toList (c :: source) = none) :
    packageEnd? (blanked (c :: source))
      = (packageEnd? (blanked source)).map (·.map (byteLength (blanked [c]) + ·)) := by
  rw [blanked_cons]
  refine packageEnd?_append ?_
  obtain ⟨d, rfl⟩ | ⟨d, rfl⟩ := shown_or_concealed c
  · have hnone : "package".toList.isPrefixOf (d :: blanked source) = false := by
      have hbegins := isPrefixOf_blanked "package".toList (by decide) (shown d :: source)
      rwa [h] at hbegins
    show splitOnce _ (d :: blanked source) = _
    rw [splitOnce, hnone]
    rfl
  · have hblanked : blanked [concealed d] = List.replicate d.utf8Size ' ' := List.append_nil _
    rw [hblanked]
    exact splitOnce_blanks (d := 'p') (by decide) _ _

/-- **The package line ends where it does in the file**, between two
characters. -/
theorem packageEnd?_eq (source : Source) :
    behindPackage source = none ∧ packageEnd? source.blanked = some none ∨
    ∃ front behind, behindPackage source = some behind ∧ source = front ++ behind ∧
      packageEnd? source.blanked = some (some (byteLength front.chars)) := by
  induction source with
  | nil => exact .inl ⟨rfl, rfl⟩
  | cons c source ih =>
    rw [behindPackage]
    cases hword : behindWord "package".toList (c :: source) with
    | some rest =>
      have hbegins := isPrefixOf_blanked "package".toList (by decide) (c :: source)
      rw [hword] at hbegins
      rw [packageEnd?_of_isPrefixOf hbegins]
      cases hdrop : (c :: source).dropWhile fun d => d.code != ';' with
      | nil => exact .inl ⟨rfl, by rw [find?_blanked_eq_none hdrop]; rfl⟩
      | cons d behind =>
        obtain ⟨hcut, hfound⟩ := find?_blanked (by decide) hdrop
        refine .inr ⟨(c :: source).takeWhile (fun d => d.code != ';') ++ [shown ';'],
          behind, rfl, ?_, ?_⟩
        · rw [List.append_assoc]
          exact hcut
        · rw [hfound, chars_append, byteLength_append]
          rfl
    | none =>
      rw [packageEnd?_cons hword]
      rcases ih with ⟨hnone, hend⟩ | ⟨front, behind, hbehind, rfl, hend⟩
      · exact .inl ⟨hnone, by rw [hend]; rfl⟩
      · refine .inr ⟨c :: front, behind, hbehind, rfl, ?_⟩
        rw [hend, byteLength_blanked]
        rfl

/-! ## Annotations -/

/-- The places of the annotations in a text that begins at a place. -/
def marksAt (place : Nat) : Source → List (Nat × Nat)
  | [] => []
  | c :: rest =>
    match markAt (c :: rest) with
    | some mark =>
      let stop := place + byteLength mark.chars
      (place, stop) :: marksAt stop (rest.drop (mark.length - 1))
    | none => marksAt (place + c.char.utf8Size) rest
termination_by source => source.length

/-- What stands between two places of the text. -/
def textAt? (text : List Char) (place : Nat × Nat) : Option String :=
  (slice? place.1 place.2 text).map String.ofList

theorem textAt?_eq (h : whole = front ++ (part ++ rest)) :
    textAt? whole.chars (byteLength front.chars, byteLength (front ++ part).chars)
      = some part.text := by
  rw [textAt?, slice?_chars h]
  rfl

theorem marksAt_append {mark : Source} (h : markAt (mark ++ rest) = some mark) (place : Nat) :
    marksAt place (mark ++ rest)
      = (place, place + byteLength mark.chars) :: marksAt (place + byteLength mark.chars) rest := by
  cases mark with
  | nil =>
    obtain ⟨-, -, d, name, args, hflat, -⟩ := exists_of_markAt h
    cases hflat
  | cons c mark =>
    rw [List.cons_append] at h ⊢
    rw [marksAt, h]
    simp only [List.length_cons, Nat.add_sub_cancel, List.drop_left]

theorem marksAt_cons_of_none (h : markAt (c :: rest) = none) (place : Nat) :
    marksAt place (c :: rest) = marksAt (place + c.char.utf8Size) rest := by
  rw [marksAt, h]

theorem marksAt_blanks (n place : Nat) (source : Source) :
    marksAt place (List.replicate n (shown ' ') ++ source) = marksAt (place + n) source := by
  induction n generalizing place with
  | zero => rfl
  | succ n ih =>
    rw [List.replicate_succ, List.cons_append,
      marksAt_cons_of_none (markAt_eq_none (by simp [code_shown])), ih, Nat.add_right_comm]
    rfl

theorem byteLength_masked (source : Source) :
    byteLength (masked source).chars = byteLength source.chars := by
  rw [masked, chars_map_shown, byteLength_blanked]

/-- An annotation has the same length in the masked text. -/
theorem marksAt_masked_append {mark : Source} (h : markAt (mark ++ rest) = some mark)
    (place : Nat) :
    marksAt place (masked (mark ++ rest))
      = (place, place + byteLength mark.chars) :: marksAt (place + byteLength mark.chars)
        (masked rest) := by
  have hat := markAt_masked (mark ++ rest)
  rw [h, masked_append] at hat
  rw [masked_append, marksAt_append hat, byteLength_masked]

/-- The bytes of any other character are passed. -/
theorem marksAt_masked_cons (h : markAt (c :: rest) = none) (place : Nat) :
    marksAt place (masked (c :: rest)) = marksAt (place + c.char.utf8Size) (masked rest) := by
  have hat := markAt_masked (c :: rest)
  have hsize := byteLength_masked (c :: rest)
  obtain ⟨blanks, hmasked, -⟩ := exists_masked_cons c rest
  have hblanks : byteLength (chars (List.replicate blanks (shown ' '))) = blanks := by
    rw [chars, List.map_replicate]
    exact byteLength_replicate blanks
  rw [h, hmasked] at hat
  rw [hmasked, chars_cons, chars_append, chars_cons, byteLength_cons, byteLength_append,
    byteLength_cons, byteLength_masked] at hsize
  rw [hmasked, marksAt_cons_of_none hat, marksAt_blanks]
  exact congrArg (marksAt · (masked rest)) (by omega)

/-- **The annotations are slices of the text**, at the places where they are
in the masked one. -/
theorem mapM_marksAt (h : whole = front ++ (part ++ rest)) :
    (marksAt (byteLength front.chars) (masked part)).mapM (textAt? whole.chars)
      = some ((marksFrom 0 part).map (·.text)) := by
  induction hlength : part.length using Nat.strong_induction_on generalizing front part with
  | h n ih =>
    cases part with
    | nil =>
      rw [masked_nil, marksAt, marksFrom]
      rfl
    | cons c part =>
      cases hmark : markAt (c :: part) with
      | some mark =>
        obtain ⟨back, hcut, hflat⟩ := exists_of_markAt hmark
        obtain _ | ⟨d, mark⟩ := mark
        · obtain ⟨d, name, args, hflat, -⟩ := hflat
          cases hflat
        have hshorter : back.length < n := by
          rw [← hlength, hcut, List.length_append, List.length_cons]
          omega
        have hwhole : whole = front ++ ((d :: mark) ++ (back ++ rest)) := by
          rw [h, hcut, List.append_assoc]
        have hstop : byteLength front.chars + byteLength (chars (d :: mark))
            = byteLength (front ++ d :: mark).chars := by
          rw [chars_append, byteLength_append]
        rw [hcut] at hmark ⊢
        rw [marksAt_masked_append hmark, marksFrom_cons_of_some hmark, hstop, List.mapM_cons,
          textAt?_eq hwhole, ih back.length hshorter (by rw [hwhole, List.append_assoc]) rfl]
        rfl
      | none =>
        have hplace : byteLength front.chars + c.char.utf8Size
            = byteLength (front ++ [c]).chars := by
          rw [chars_append, byteLength_append, chars_cons, byteLength_cons, chars_nil,
            byteLength_nil, Nat.add_zero]
        rw [marksAt_masked_cons hmark, hplace, marksFrom, hmark]
        exact ih part.length (hlength ▸ Nat.lt_succ_self _) (by rw [h, List.append_assoc]; rfl) rfl

/-- The annotations between two places. -/
def annotationsAt? (text masked : List Char) (start stop : Nat) : Option (List String) := do
  let part ← slice? start stop masked
  (marksAt start (part.map shown)).mapM (textAt? text)

theorem annotationsAt?_eq (h : whole = front ++ (part ++ rest)) :
    annotationsAt? whole.chars whole.blanked (byteLength front.chars)
      (byteLength (front ++ part).chars)
      = some ((marksFrom 0 part).map (·.text)) := by
  rw [annotationsAt?, slice?_blanked h]
  exact mapM_marksAt h

/-! ## The text in front of the declaration -/

/-- The imports in front of a place, and the annotations behind them. -/
def preludeAt? (text masked : List Char) (start : Nat) : Option (List String × List String) := do
  let prelude ← upTo? start masked
  let imported := importsFrom true (prelude.map shown)
  let place ← match imported.2 with
    | some behind => some (byteLength prelude - byteLength behind.chars)
    | none => (packageEnd? prelude).map (·.getD 0)
  let annotations ← annotationsAt? text masked place start
  return (imported.1, annotations)

theorem preludeAt?_eq {prelude : Source} (h : whole = prelude ++ rest) :
    preludeAt? whole.chars whole.blanked (byteLength prelude.chars)
      = some ((importsFrom true prelude).1,
        (marksFrom 0 (((importsFrom true prelude).2.or (behindPackage prelude)).getD prelude)).map
        (·.text)) := by
  have hprelude : upTo? (byteLength prelude.chars) whole.blanked = some prelude.blanked := by
    rw [h, blanked_append, ← byteLength_blanked]
    exact upTo?_append _ _
  have himports : importsFrom true (prelude.blanked.map shown) = _ :=
    importsFrom_masked true prelude
  -- whatever the annotations are read behind, it ends between two characters
  have hmarks : ∀ {front part : Source}, prelude = front ++ part →
      annotationsAt? whole.chars whole.blanked (byteLength front.chars) (byteLength prelude.chars)
        = some ((marksFrom 0 part).map (·.text)) := by
    rintro front part rfl
    exact annotationsAt?_eq (by rw [h, List.append_assoc])
  rw [preludeAt?, hprelude]
  simp only [Option.bind_eq_bind, Option.bind_some, himports]
  cases hlast : (importsFrom true prelude).2 with
  | some behind =>
    obtain ⟨front, c, hcut, -⟩ := exists_of_importsFrom hlast
    have hcut : prelude = (front ++ [c]) ++ behind := by simp [hcut]
    have hplace : byteLength prelude.blanked - byteLength (masked behind).chars
        = byteLength (front ++ [c]).chars := by
      rw [byteLength_blanked, byteLength_masked, hcut, chars_append,
        byteLength_append, Nat.add_sub_cancel]
    simp only [Option.map_some, Option.bind_some, hplace, hmarks hcut]
    rfl
  | none =>
    simp only [Option.map_none]
    rcases packageEnd?_eq prelude with ⟨hnone, hplace⟩ | ⟨front, behind, hbehind, hcut, hplace⟩
    · have hwhole : annotationsAt? whole.chars whole.blanked 0 (byteLength prelude.chars) = _ :=
        @hmarks [] prelude rfl
      rw [hplace, hnone]
      simp only [Option.map_some, Option.bind_some, Option.getD_none, hwhole]
      rfl
    · rw [hplace, hbehind]
      simp only [Option.map_some, Option.bind_some, Option.getD_some, hmarks hcut]
      rfl

/-! ## The header -/

/-- The header behind the type parameters. -/
def skipParameters? (header : List Char) : Option (List Char) :=
  let start := trimStart header
  if ['<'].isPrefixOf start then
    (balancedEnd? '<' '>' 0 0 start).elim (some []) (from? · start)
  else some start

/-- What a declaration extends and implements, between two places. -/
def clausesAt? (masked : List Char) (start stop : Nat) : Option Clauses := do
  let header ← slice? start stop masked
  let cs ← skipParameters? header
  return clausesOf (trim cs)

theorem skipParameters?_eq (header : List Char) :
    ∃ cs, skipParameters? header = some cs ∧ clauses header = clausesOf (trim cs) := by
  unfold skipParameters?
  by_cases hangle : ∃ rest, trimStart header = '<' :: rest
  · obtain ⟨rest, hstart⟩ := hangle
    rw [hstart]
    refine ⟨dropBalanced '<' '>' 0 ('<' :: rest), from?_balancedEnd '<' rfl [] 0, ?_⟩
    rw [clauses, hstart]
    rfl
  · have hnone : ['<'].isPrefixOf (trimStart header) = false := by
      cases hstart : trimStart header with
      | nil => rfl
      | cons c rest =>
        have hc : '<' ≠ c := fun heq => hangle ⟨rest, by rw [hstart, heq]⟩
        rw [List.isPrefixOf_cons_cons, beq_eq_false_iff_ne.2 hc, Bool.false_and]
    refine ⟨trimStart header, by simp only [hnone, if_neg Bool.false_ne_true], ?_⟩
    rw [clauses_of_start fun more h => hangle ⟨more, h⟩, trim_trimStart]

theorem clausesAt?_eq (h : whole = front ++ (part ++ rest)) :
    clausesAt? whole.blanked (byteLength front.chars) (byteLength (front ++ part).chars)
      = some (clauses part.blanked) := by
  obtain ⟨cs, hskip, hclauses⟩ := skipParameters?_eq part.blanked
  rw [clausesAt?, slice?_blanked h, hclauses]
  simp only [Option.bind_eq_bind, Option.bind_some, hskip]
  rfl

/-! ## The declaration -/

/-- A declaration, and the text in front of it and behind it. -/
theorem exists_of_findDeclaration {before source : Source} {found : Declaration}
    (h : findDeclaration before source = some found) :
    ∃ mid, before.reverse ++ source = found.prelude ++ (mid ++ found.rest) := by
  induction source generalizing before with
  | nil => simp [findDeclaration] at h
  | cons c source ih =>
    cases hat : declarationAt (before.head?.any fun d => isWordChar d.code) (c :: source) with
    | some pair =>
      rw [findDeclaration_cons_of_some hat] at h
      obtain ⟨mid, hmid⟩ := declarationAt_suffix hat
      rw [← Option.some.inj h]
      exact ⟨mid, by rw [hmid]⟩
    | none =>
      rw [findDeclaration_cons_of_none hat] at h
      obtain ⟨mid, hmid⟩ := ih h
      exact ⟨mid, by rw [← hmid]; simp⟩

end Source

open Source

/-! ## The existing file -/

/-- **The declaration of a file and the members of its body**, given the text
and the masked text. The body is read on its own, and left out of the
declaration. -/
def Declared.readAt? (text masked : List Char) : Option (Option (Declared × List Member)) :=
  match findDeclaration [] (masked.map shown) with
  | none => some none
  | some found => do
    let nameEnd := byteLength masked - byteLength found.rest.chars
    let behindName ← from? nameEnd masked
    match find? (· == '\x7b') behindName with
    | none => return none
    | some header => do
      let opening := nameEnd + header
      let clauses ← clausesAt? masked nameEnd opening
      let (imports, annotations) ← preludeAt? text masked (byteLength found.prelude.chars)
      let members ← Member.splitBody? text masked (opening + 1)
      return some ({
        kind := found.kind
        superclass := if found.kind = .interface then none else clauses.extends?.head?
        superInterfaces := if found.kind = .interface then clauses.extends? else clauses.implements
        imports
        annotations
        body := [] }, members)

theorem Declared.readAt?_eq (source : Source) : Declared.readAt? source.chars source.blanked
    = some ((Declared.ofSource? source).map fun old =>
      ({ old with body := [] }, Member.ofBody old.body)) := by
  have hmasked : findDeclaration [] (source.blanked.map shown)
      = (findDeclaration [] source).map Declaration.masked :=
    findDeclaration_masked rfl source
  rw [readAt?, ofSource?, hmasked]
  cases hfound : findDeclaration [] source with
  | none => rfl
  | some found =>
    obtain ⟨mid, hcut⟩ := exists_of_findDeclaration hfound
    rw [List.reverse_nil, List.nil_append] at hcut
    have hname : source = (found.prelude ++ mid) ++ found.rest := by rw [hcut, List.append_assoc]
    have hplace : byteLength source.blanked - byteLength found.rest.chars
        = byteLength (found.prelude ++ mid).chars := by
      rw [byteLength_blanked, hname, chars_append, byteLength_append, Nat.add_sub_cancel]
    simp only [Option.map_some, Option.bind_eq_bind, Option.bind_some, Declaration.masked,
      byteLength_masked, hplace, from?_blanked hname, preludeAt?_eq hcut]
    cases hdrop : found.rest.dropWhile fun c => c.code != '\x7b' with
    | nil =>
      rw [find?_blanked_eq_none hdrop]
      rfl
    | cons c body =>
      obtain ⟨hheader, hbrace⟩ := find?_blanked (by decide) hdrop
      generalize found.rest.takeWhile (fun c => c.code != '\x7b') = header at hheader hbrace
      have hwhole : source = (found.prelude ++ mid) ++ (header ++ (shown '\x7b' :: body)) := by
        rw [← hheader, ← hname]
      have hbody : source = (found.prelude ++ mid ++ header ++ [shown '\x7b']) ++ body := by
        simp [hwhole]
      have hopening : byteLength (found.prelude ++ mid).chars + byteLength (chars header)
          = byteLength (found.prelude ++ mid ++ header).chars := by
        rw [chars_append _ header, byteLength_append]
      have hstart : byteLength (found.prelude ++ mid ++ header).chars + 1
          = byteLength (found.prelude ++ mid ++ header ++ [shown '\x7b']).chars := by
        rw [chars_append _ [shown '\x7b'], byteLength_append]
        rfl
      rw [hbrace]
      simp only [hopening, clausesAt?_eq hwhole, hstart,
        Member.splitBody?_eq hbody, Option.bind_some]
      rfl

namespace JavaUnit

/-- **The merge by byte offsets.** There is no result if a slice does not exist
or the masked bytes are not those of a text. -/
def mergeAt? (fresh : JavaUnit) (existing : String) : Option (Except MergeReason String) := do
  let masked ← String.fromUTF8? (maskBytes existing.toUTF8)
  match ← Declared.readAt? existing.toList masked.toList with
  | none => return .error .noDeclaration
  | some (old, members) => return do
    fresh.checkDeclared old
    return ((fresh.keepHeader old).keepMembers (members.filter (!·.tagged))).render

theorem mergeAt?_eq (fresh : JavaUnit) (existing : String) :
    mergeAt? fresh existing = some (fresh.mergeInto existing) := by
  have htext : existing.toList = (ofText existing).chars := by rw [ofText, chars_markFrom]
  rw [mergeAt?, fromUTF8?_maskBytes]
  simp only [Option.bind_eq_bind, Option.bind_some, String.toList_ofList, htext,
    Declared.readAt?_eq, mergeInto]
  cases Declared.ofSource? (ofText existing) <;> rfl

/-- **A merge gives a text or a reason, whatever the existing text is.** The
masked bytes are those of a text of the same length, with every byte as it was
or a blank; and every slice between places found in the masked text exists in
the text it is taken of, so that the merge by byte offsets has a result. -/
theorem mergeAt?_total (fresh : JavaUnit) (existing : String) :
    (maskBytes existing.toUTF8).IsValidUTF8 ∧
      List.Forall₂ (fun b masked => masked = b ∨ masked = 0x20) existing.toUTF8.data.toList
        (maskBytes existing.toUTF8).data.toList ∧
      mergeAt? fresh existing = some (fresh.mergeInto existing) := by
  refine ⟨isValidUTF8_maskBytes existing, ?_, mergeAt?_eq fresh existing⟩
  rw [maskBytes, List.toList_data_toByteArray]
  exact forall₂_maskedBytes _

end JavaUnit

end TableMapper
