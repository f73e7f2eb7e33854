import TableMapper.Proofs.Merge.StretchedCode
import TableMapper.Proofs.Text.ByteSlices
import TableMapper.Proofs.Text.Items
import TableMapper.Proofs.Unit.MaskedSearch

/-!
# Members cut out of a text by byte offsets

The code of a member is cut at places that are found in it: behind an
annotation, behind its name, in front of the parameters. A cut is an error if
the place is inside a character, outside the text, or behind the end of the
slice. Here the same cuts are made by checked slices, and the result is `none`
if one of them fails. **None fails, and the key is the one read without
offsets** (`MemberKey.ofCode?_eq`). The member itself is cut out of two texts at
places found in one of them, the masked one. **The places fit the other text
as well** (`Member.ofSlice?_eq`).
-/

namespace TableMapper

open Text

namespace MemberKey

/-! ## Annotations -/

/-- Some code begins with an annotation. -/
def beginsMark (code : List Char) : Bool :=
  "@".toList.isPrefixOf code && !"@interface".toList.isPrefixOf code

/-- What follows the annotation at the beginning of some code. -/
def behindMark? (code : List Char) : Option (List Char) := do
  let name ← from? 1 code
  let behind ← from? (((find? (!isMarkChar ·) name).map (· + 1)).getD (byteLength code)) code
  let behind := trimStart behind
  if "(".toList.isPrefixOf behind then
    from? ((balancedEnd? '(' ')' 0 0 behind).getD (byteLength behind)) behind
  else return behind

variable {cs code : List Char}

theorem from?_balancedEnd_getD (cs : List Char) :
    from? ((balancedEnd? '(' ')' 0 0 cs).getD (byteLength cs)) cs
      = some (dropBalanced '(' ')' 0 cs) := by
  have hend : (balancedEnd? '(' ')' 0 0 cs).elim (some []) (from? · cs)
      = some (dropBalanced '(' ')' 0 cs) :=
    from?_balancedEnd '(' rfl [] 0
  cases hfound : balancedEnd? '(' ')' 0 0 cs with
  | some place =>
    rw [hfound] at hend
    exact hend
  | none =>
    rw [hfound] at hend
    rw [← hend]
    exact from?_eq_some_iff.2 ⟨cs, (List.append_nil cs).symm, rfl⟩

theorem beginsMark_cons (c : Char) (rest : List Char) :
    beginsMark (c :: rest) = (c == '@' && !"interface".toList.isPrefixOf rest) := by
  have hword : "@interface".toList = '@' :: "interface".toList := by decide
  have hsign : "@".toList = ['@'] := by decide
  rw [beginsMark, hword, hsign, List.isPrefixOf_cons_cons, List.isPrefixOf_cons_cons,
    List.isPrefixOf_nil_left, BEq.comm (a := '@')]
  cases c == '@' <;> rfl

theorem behindMark_eq_none (h : beginsMark code = false) : behindMark code = none := by
  cases code with
  | nil => rfl
  | cons c rest =>
    rw [beginsMark_cons] at h
    by_cases hc : c = '@'
    · subst hc
      have hinterface : "interface".toList.isPrefixOf rest = true := by simpa using h
      rw [behindMark, if_pos hinterface]
    · simp [behindMark, hc]

theorem behindMark_ne_none (h : beginsMark code = true) : behindMark code ≠ none := by
  cases code with
  | nil => exact absurd h (by decide)
  | cons c rest =>
    rw [beginsMark_cons, Bool.and_eq_true, beq_iff_eq, Bool.not_eq_true'] at h
    obtain ⟨rfl, hinterface⟩ := h
    rw [behindMark, hinterface, if_neg Bool.false_ne_true]
    dsimp only
    split <;> exact Option.some_ne_none _

theorem behindMark?_eq (h : beginsMark code = true) : behindMark? code = behindMark code := by
  cases code with
  | nil => exact absurd h (by decide)
  | cons c rest =>
    rw [beginsMark_cons, Bool.and_eq_true, beq_iff_eq, Bool.not_eq_true'] at h
    obtain ⟨rfl, hinterface⟩ := h
    have hname : from? 1 ('@' :: rest) = some rest := from?_append ['@'] rest
    have hend : ((find? (!isMarkChar ·) rest).map (· + 1)).getD (byteLength ('@' :: rest))
        = byteLength ('@' :: rest.takeWhile isMarkChar) := by
      have hfind : (find? (!isMarkChar ·) rest).getD (byteLength rest)
          = byteLength (rest.takeWhile isMarkChar) := by
        simp only [find?_getD, Bool.not_not]
      cases hfound : find? (!isMarkChar ·) rest with
      | none =>
        rw [hfound] at hfind
        exact congrArg (1 + ·) hfind
      | some place =>
        rw [hfound] at hfind
        exact (Nat.add_comm place 1).trans (congrArg (1 + ·) hfind)
    have hbehind : from? (byteLength ('@' :: rest.takeWhile isMarkChar)) ('@' :: rest)
        = some (rest.dropWhile isMarkChar) :=
      from?_eq_some_iff.2 ⟨_, congrArg (List.cons '@') List.takeWhile_append_dropWhile.symm, rfl⟩
    rw [behindMark, hinterface, behindMark?, hname]
    simp only [Option.bind_eq_bind, Option.bind_some, hend, hbehind, from?_balancedEnd_getD]
    cases trimStart (rest.dropWhile isMarkChar) with
    | nil => rfl
    | cons d behind =>
      by_cases hd : d = '('
      · subst hd
        rfl
      · simp [hd, Ne.symm hd]

/-- **Code without its leading blanks and annotations**, cut at byte offsets. -/
def skipMarks? (code : List Char) : Option (List Char) :=
  if _h : beginsMark (trimStart code) = true then
    match _hrest : behindMark? (trimStart code) with
    | none => none
    | some rest => skipMarks? rest
  else some (trimStart code)
termination_by code.length
decreasing_by
  rw [behindMark?_eq _h] at _hrest
  have hshorter := behindMark_length _hrest
  have htrim := (List.dropWhile_suffix Text.isBlank (l := code)).length_le
  rw [trimStart] at hshorter
  omega

theorem skipMarks?_eq (code : List Char) : skipMarks? code = some (skipMarks code) := by
  fun_induction skipMarks? code with
  | case1 code hbegins hnone =>
    rw [behindMark?_eq hbegins] at hnone
    exact absurd hnone (behindMark_ne_none hbegins)
  | case2 code hbegins rest hrest ih => 
    rw [behindMark?_eq hbegins] at hrest
    rw [ih, skipMarks_of_some hrest]
  | case3 code hbegins => rw [skipMarks_of_none (behindMark_eq_none (Bool.eq_false_iff.2 hbegins))]

/-! ## The head of a member -/

/-- The name of the inner type that a head declares with one of some words. -/
def innerTypeOf? (head : List Char) : List String → Option (Option String)
  | [] => some none
  | word :: words =>
    match findText? word.toList head with
    | none => innerTypeOf? head words
    | some place => do
      let behind ← from? (place + byteLength word.toList) head
      return some (String.ofList ((trimStart behind).takeWhile isIdentifierChar))

theorem innerTypeOf?_eq (head : List Char) :
    innerTypeOf? head typeWords = some (innerType? head) := by
  rw [innerType?]
  induction typeWords with
  | nil => rfl
  | cons word words ih =>
    rw [innerTypeOf?, List.findSome?_cons, findText?]
    cases hsplit : splitOnce word.toList head with
    | none => exact ih
    | some found =>
      have hcut : head = (found.1 ++ word.toList) ++ found.2 := by
        rw [List.append_assoc]
        exact eq_of_splitOnce hsplit
      have hbehind : from? (byteLength found.1 + byteLength word.toList) head = some found.2 := by
        rw [← byteLength_append, hcut]
        exact from?_append _ _
      simp only [Option.map_some, hbehind]
      rfl

/-- **The key of a member**, with its code cut at byte offsets. -/
def ofCode? (code : List Char) : Option (Option MemberKey) := do
  let code ← skipMarks? code
  let head ← upTo? ((find? (fun c => c == '\x7b' || c == '=' || c == ';') code).getD
    (byteLength code)) code
  match ← innerTypeOf? head typeWords with
  | some name => return some ⟨name, none⟩
  | none =>
    match find? (· == '(') head with
    | none => return (lastIdentifier? head).map fun name => ⟨name, none⟩
    | some opening => do
      let front ← upTo? opening head
      match lastIdentifier? front with
      | none => return none
      | some name => do
        let closing := (findLast? ')' head).getD (byteLength head)
        let list ← slice? (opening + 1) (max closing (opening + 1)) head
        return some ⟨name, some (listItems list).length⟩

/-- **The parameters are a slice of the head**, also where the last closing
parenthesis stands in front of the first opening one, or where none stands. -/
theorem slice?_parameterList (front behind : List Char) :
    slice? (byteLength front + 1)
        (max ((findLast? ')' (front ++ '(' :: behind)).getD (byteLength (front ++ '(' :: behind)))
          (byteLength front + 1))
        (front ++ '(' :: behind)
      = some (parameterList (front.contains ')') behind) := by
  have hparen : '('.utf8Size = 1 := rfl
  have hopening : byteLength (front ++ ['(']) = byteLength front + 1 :=
    byteLength_append front ['(']
  unfold findLast? parameterList
  by_cases hbehind : ')' ∈ behind
  · obtain ⟨list, last, rfl, hlast⟩ := exists_last_of_mem hbehind
    have hcut : front ++ '(' :: (list ++ ')' :: last) = (front ++ '(' :: list) ++ ')' :: last := by
      simp
    rw [splitLast_append hlast, hcut, splitLast_append hlast]
    refine slice?_eq_some_iff.2 ⟨front ++ ['('], ')' :: last, by simp, hopening, ?_⟩
    simp only [Option.map_some, Option.getD_some, byteLength_append, byteLength_cons,
      byteLength_nil, hparen]
    omega
  · rw [splitLast_of_not_mem hbehind]
    by_cases hfront : ')' ∈ front
    · obtain ⟨before, last, hfrontcut, hlast⟩ := exists_last_of_mem hfront
      have hcut : front ++ '(' :: behind = before ++ ')' :: (last ++ '(' :: behind) := by
        simp [hfrontcut]
      have hboth : ')' ∉ last ++ '(' :: behind := by simp [hlast, hbehind]
      have hle : byteLength before ≤ byteLength front := by simp [hfrontcut]
      rw [hcut, splitLast_append hboth, List.contains_iff_mem.2 hfront, ← hcut]
      show slice? _ _ _ = some []
      refine slice?_eq_some_iff.2 ⟨front ++ ['('], behind, by simp, hopening, ?_⟩
      rw [Option.map_some, Option.getD_some, List.append_nil, hopening]
      omega
    · have hboth : ')' ∉ front ++ '(' :: behind := by simp [hfront, hbehind]
      rw [splitLast_of_not_mem hboth, Bool.eq_false_iff.2 fun h =>
        hfront (List.contains_iff_mem.1 h)]
      show slice? _ _ _ = some behind
      refine slice?_eq_some_iff.2 ⟨front ++ ['('], [], by simp, hopening, ?_⟩
      rw [Option.map_none, Option.getD_none, byteLength_append, byteLength_append, byteLength_cons,
        byteLength_append, byteLength_cons, byteLength_nil, hparen]
      omega

theorem ofCode?_eq (code : List Char) : ofCode? code = some (ofCode code) := by
  have hclass : ∀ code : List Char, code.takeWhile (fun c => !(c == '\x7b' || c == '=' || c == ';'))
      = code.takeWhile fun c => c != '\x7b' && c != '=' && c != ';' := by
    intro code
    simp only [Bool.not_or]
    rfl
  unfold ofCode? ofCode
  simp only [skipMarks?_eq, upTo?_find, hclass, innerTypeOf?_eq,
    Option.bind_eq_bind, Option.bind_some]
  generalize (skipMarks code).takeWhile (fun c => c != '\x7b' && c != '=' && c != ';') = head
  cases innerType? head with
  | some name => rfl
  | none =>
    cases hdrop : head.dropWhile (· != '(') with
    | nil =>
      rw [find?_eq_none hdrop]
      rfl
    | cons c behind =>
      have hcut := List.takeWhile_append_dropWhile (p := (· != '(')) (l := head)
      rw [hdrop] at hcut
      have hfirst := List.head?_dropWhile_not (· != '(') head
      rw [hdrop] at hfirst
      obtain rfl : c = '(' := by simpa using hfirst
      rw [find?_eq_some hdrop]
      have hfront : upTo? (byteLength (head.takeWhile (· != '('))) head
          = some (head.takeWhile (· != '(')) :=
        upTo?_eq_some_iff.2 ⟨_, hcut.symm, rfl⟩
      have hlist := slice?_parameterList (head.takeWhile (· != '(')) behind
      rw [hcut] at hlist
      show (upTo? (byteLength (head.takeWhile (· != '('))) head).bind _ = some (Option.map _ _)
      rw [hfront, Option.bind_some]
      cases lastIdentifier? (head.takeWhile (· != '(')) with
      | none => rfl
      | some name =>
        exact congrArg (fun list : Option (List Char) =>
          list.bind fun list =>
            some (some (MemberKey.mk name (some (listItems list).length)))) hlist

end MemberKey

/-! ## A member between two places -/

namespace Source

theorem byteLength_blanked (source : Source) :
    byteLength source.blanked = byteLength source.chars := by
  induction source with
  | nil => rfl
  | cons c source ih =>
    obtain ⟨d, hidden⟩ := c
    cases hidden with
    | false => exact congrArg (d.utf8Size + ·) ih
    | true =>
      have hblanked : blanked (⟨d, true⟩ :: source)
          = List.replicate d.utf8Size ' ' ++ blanked source := rfl
      rw [hblanked, byteLength_append, byteLength_replicate, ih]
      rfl

theorem blanked_append (source more : Source) :
    blanked (source ++ more) = blanked source ++ blanked more :=
  List.flatMap_append

theorem trimStart_blanked (source : Source) :
    trimStart source.blanked = (skipBlanks source).blanked :=
  dropWhile_blanked isBlank source

end Source

namespace Member

/-- **The member in a slice of the text**, given the same slice of the masked
text. -/
def ofSlice? (raw masked : List Char) : Option (Option Member) :=
  let code := trim masked
  if code.isEmpty || code == [';'] then some none
  else do
    let leading ← upTo? (byteLength masked - byteLength (trimStart masked)) raw
    let key ← MemberKey.ofCode? code
    return some {
      key
      tagged := occursIn Settings.retentionTag.toList leading
      text := trimmed (String.ofList raw) }

theorem ofSlice?_eq (segment : Source) :
    ofSlice? segment.chars segment.blanked = some (ofSegment? segment) := by
  have hstretches : Stretches (Source.trimmedCodes segment) (trim segment.blanked) :=
    segment.stretches_blanked.trim
  have hempty : (trim segment.blanked).isEmpty = (Source.trimmedCodes segment).isEmpty := by
    rw [Bool.eq_iff_iff, List.isEmpty_iff, List.isEmpty_iff]
    exact hstretches.eq_iff (by decide)
  have hsemicolon : (trim segment.blanked == [';']) = (Source.trimmedCodes segment == [';']) := by
    rw [Bool.eq_iff_iff, beq_iff_eq, beq_iff_eq]
    exact hstretches.eq_iff (by decide)
  unfold ofSlice? ofSegment?
  simp only [hempty, hsemicolon]
  split
  · rfl
  · -- the blanks in front take as many bytes in both texts
    have hcut := List.takeWhile_append_dropWhile (p := fun c : SourceChar => isBlank c.code)
      (l := segment)
    have hleading : upTo?
        (byteLength segment.blanked - byteLength (trimStart segment.blanked)) segment.chars
        = some (Source.chars (segment.takeWhile fun c => isBlank c.code)) := by
      refine upTo?_eq_some_iff.2 ⟨Source.chars (Source.skipBlanks segment), ?_, ?_⟩
      · rw [← Source.chars_append, Source.skipBlanks, hcut]
      · have hbytes := congrArg (fun s : Source => byteLength s.chars) hcut
        simp only [Source.chars_append, byteLength_append] at hbytes
        rw [Source.trimStart_blanked, Source.byteLength_blanked,
          Source.byteLength_blanked, Source.skipBlanks]
        omega
    rw [hleading, MemberKey.ofCode?_eq, MemberKey.ofCode_stretches hstretches]
    rfl

end Member

end TableMapper
