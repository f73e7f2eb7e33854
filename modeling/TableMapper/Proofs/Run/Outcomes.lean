import TableMapper.Proofs.Files.Contents
import TableMapper.Proofs.Run.WrittenTwice

/-!
# What outcomes tell

Writing an artifact changes one file at most, and **the outcome tells which
one, and from what** (`Artifact.effect_of_write`): the target, where there was
nothing, what was merged, or what was overwritten; or the first free path
beside the target. The directories on the way are made in any case, so files
are compared by what they hold (`FileTree.KeepsFiles`, `FileTree.SetsFile`).

Numbered paths are looked for when the directory of the target is there. For
a target with a name this makes no difference, as none of them is on the way
to it (`Writing.exists_numbered`).
-/

namespace TableMapper

/-! ## Numbered paths -/

theorem Path.not_mem_fileName (path : String) : '/' ∉ (Path.fileName path).toList := by
  rw [fileName]
  cases hlast : (parts path).getLast? with
  | none => simp
  | some part =>
    have hslash : '/' ∉ part.toList := by
      obtain ⟨hmem, -⟩ := List.mem_filter.1 (List.mem_of_getLast? hlast)
      obtain ⟨piece, hpiece, rfl⟩ := List.mem_map.1 hmem
      rw [String.toList_ofList]
      exact fun hslash => absurd (Text.mem_of_mem_piece hpiece hslash).2 (by simp)
    rw [Option.filter_some]
    split
    · exact hslash
    · simp

namespace Writing

variable {tree : FileTree} {target path : String} {n : Nat}

/-- A name with a number behind it is a name, whatever is in front. -/
theorem isName_numbered {name : String} (h : '/' ∉ name.toList) (n : Nat) :
    Path.IsName (name ++ "." ++ toString n) := by
  have hdigits : (toString n).toList = Nat.toDigits 10 n := Nat.toList_repr
  have hdigit : ∀ c ∈ Nat.toDigits 10 n, c.isDigit = true := fun c hc =>
    Nat.isDigit_of_mem_toDigits (by decide) (by decide) hc
  constructor
  case slash =>
    rw [String.toList_append, String.toList_append, hdigits]
    simp only [List.mem_append, not_or]
    exact ⟨⟨h, by decide⟩, fun hmem => absurd (hdigit '/' hmem) (by decide)⟩
  case ended =>
    have hne : Nat.toDigits 10 n ≠ [] := Nat.toDigits_ne_nil
    refine ⟨(name ++ ".").toList ++ (Nat.toDigits 10 n).dropLast, (Nat.toDigits 10 n).getLast hne,
      ?_, fun hdot => ?_⟩
    · rw [String.toList_append, hdigits, List.append_assoc, List.dropLast_concat_getLast hne]
    · exact absurd (hdigit _ (List.getLast_mem hne)) (by rw [hdot]; decide)

/-- **A numbered path leads into the directory of its target.** -/
theorem location_numbered (h : Path.fileName target ≠ "") (n : Nat) :
    Path.location (numbered target n) =
    Path.location (Path.parent target) ++ [Path.fileName target ++ "." ++ toString n] := by
  have hname := isName_numbered (Path.not_mem_fileName target) n
  rw [numbered, if_neg (by simpa using h), Path.location_join hname.not_absolute, hname.parts]
  exact hname.step _

/-- **Making the directory of a target makes none of its numbered paths.** -/
theorem exists_numbered (h : Path.fileName target ≠ "") (n : Nat) :
    (tree.withDirectories (Path.location (Path.parent target))).exists (numbered target n) =
      tree.exists (numbered target n) := by
  refine FileTree.exists_withDirectories_of_not_prefix fun hway => ?_
  have hlength := hway.length_le
  rw [location_numbered h, List.length_append, List.length_singleton] at hlength
  omega

/-- **The first free number** beside a target. -/
structure IsFirstFree (tree : FileTree) (target : String) (n : Nat) : Prop where
  low : 1 ≤ n
  high : n ≤ Settings.maxSuffix
  free : tree.exists (numbered target n) = false
  taken : ∀ m, 1 ≤ m → m < n → tree.exists (numbered target m) = true

/-- No number is free beside a target. -/
def IsExhausted (tree : FileTree) (target : String) : Prop :=
  ∀ n, 1 ≤ n → n ≤ Settings.maxSuffix → tree.exists (numbered target n) = true

theorem isFirstFree_of_freePath? (h : freePath? tree target = some path) :
    ∃ n, IsFirstFree tree target n ∧ numbered target n = path := by
  rw [freePath?, List.find?_map, Option.map_eq_some_iff] at h
  obtain ⟨i, hi, rfl⟩ := h
  obtain ⟨hfree, hmem, hbefore⟩ := List.find?_range_eq_some.1 hi
  refine ⟨i + 1, ⟨by omega, List.mem_range.1 hmem, by simpa using hfree, fun m hlow hm => ?_⟩, rfl⟩
  obtain ⟨j, rfl⟩ : ∃ j, m = j + 1 := ⟨m - 1, by omega⟩
  simpa using hbefore j (by omega)

theorem isExhausted_of_freePath? (h : freePath? tree target = none) : IsExhausted tree target := by
  rw [freePath?, List.find?_map, Option.map_eq_none_iff, List.find?_range_eq_none] at h
  intro n hlow hhigh
  obtain ⟨i, rfl⟩ : ∃ i, n = i + 1 := ⟨n - 1, by omega⟩
  simpa using h i (by omega)

/-! ## Effects -/

/-- **What writing an artifact has done**, by its outcome and warnings. -/
inductive Effect (settings : Settings) (tree : FileTree) (a : Artifact) : Written → Prop
  /-- On demand nothing is done. -/
  | planned (dry : settings.dryRun = true) : Effect settings tree a ⟨tree, ⟨.planned, a.target⟩, []⟩
  /-- Its directory cannot be made. -/
  | unplaced (dry : settings.dryRun = false) (directory : withDirectory? tree a.target = none) :
      Effect settings tree a
        ⟨tree, ⟨.skipped, a.target⟩, [.directory (Path.parent a.target) a.fileName]⟩
  /-- It is the first file at its target. -/
  | created {tree' : FileTree} (dry : settings.dryRun = false)
      (absent : tree.exists a.target = false)
      (free : tree.contentAt? a.place = none) (sets : tree.SetsFile tree' a.target a.render) :
      Effect settings tree a ⟨tree', ⟨.created, a.target⟩, []⟩
  /-- It is merged into the text at its target. -/
  | merged {tree' : FileTree} {old text : String} (dry : settings.dryRun = false)
      (merge : settings.merge = true)
      (read : tree.readText a.target = .ok old) (merges : a.mergeInto old = .ok text)
      (sets : tree.SetsFile tree' a.target text) :
      Effect settings tree a ⟨tree', ⟨.merged, a.target⟩, []⟩
  /-- It cannot be merged into the text at its target. -/
  | unmerged {tree' : FileTree} {old : String} {reason : MergeReason}
      (dry : settings.dryRun = false)
      (merge : settings.merge = true) (read : tree.readText a.target = .ok old)
      (fails : a.mergeInto old = .error reason) (keeps : tree.KeepsFiles tree') :
      Effect settings tree a ⟨tree', ⟨.skipped, a.target⟩, [.unmerged ⟨a.fileName, reason⟩]⟩
  /-- It replaces the file at its target. -/
  | overwritten {tree' : FileTree} {old : Content} (dry : settings.dryRun = false)
      (merge : settings.merge = false)
      (overwrite : settings.overwrite = true) (present : tree.find a.target = .ok (.file old))
      (sets : tree.SetsFile tree' a.target a.render) :
      Effect settings tree a ⟨tree', ⟨.overwritten, a.target⟩, [.overwritten a.target]⟩
  /-- It goes to the first free path beside its target, which stays as it
  was. -/
  | renamed {tree' : FileTree} {n : Nat} (dry : settings.dryRun = false)
      (merge : settings.merge = false)
      (overwrite : settings.overwrite = false)
      (found : IsFirstFree (tree.withDirectories a.directory) a.target n)
      (first : Path.fileName a.target ≠ "" → IsFirstFree tree a.target n)
      (absent : tree.exists (numbered a.target n) = false)
      (sets : tree.SetsFile tree' (numbered a.target n) a.render)
      (keeps : tree'.contentAt? a.place = tree.contentAt? a.place) :
      Effect settings tree a
        ⟨tree', ⟨.renamed, numbered a.target n⟩, [.renamed a.target (numbered a.target n)]⟩
  /-- There is no free path beside its target. -/
  | exhausted {tree' : FileTree} (dry : settings.dryRun = false) (merge : settings.merge = false)
      (overwrite : settings.overwrite = false) (taken : IsExhausted tree' a.target)
      (keeps : tree.KeepsFiles tree') :
      Effect settings tree a ⟨tree', ⟨.skipped, a.target⟩, [.suffixesExhausted a.target]⟩

end Writing

namespace Artifact

variable {settings : Settings} {tree : FileTree} {a : Artifact} {w : Written} {n : Nat}

/-- The first free number is the same before the directory is made. -/
theorem isFirstFree_of_withDirectories
    (h : Writing.IsFirstFree (tree.withDirectories a.directory) a.target n)
    (hname : Path.fileName a.target ≠ "") : Writing.IsFirstFree tree a.target n where
  low := h.low
  high := h.high
  free := by
    rw [← Writing.exists_numbered hname]
    exact h.free
  taken := by
    intro m hlow hm
    rw [← Writing.exists_numbered hname]
    exact h.taken m hlow hm

/-- What is free when directories have been made was free before. -/
theorem exists_eq_false_of_withDirectories {path : String} {location : Location}
    (h : (tree.withDirectories location).exists path = false) : tree.exists path = false := by
  rw [Bool.eq_false_iff] at h ⊢
  exact fun hexists => h (FileTree.exists_withDirectories hexists location)

section

variable {made : FileTree} (hdry : settings.dryRun = false)
  (hmade : tree.withDirectories a.directory = made)
include hdry hmade

theorem effect_of_merge (hmerge : settings.merge = true) (h : Writing.merge made a = .ok w) :
    Writing.Effect settings tree a w := by
  have hkeeps : tree.KeepsFiles made := hmade ▸ FileTree.keepsFiles_withDirectories tree a.directory
  obtain ⟨old, hread, h⟩ := Except.exists_of_bind_eq_ok h
  cases hresult : a.mergeInto old with
  | error reason =>
    rw [hresult] at h
    cases h
    exact .unmerged hdry hmerge (hkeeps.readText.1 hread) hresult hkeeps
  | ok text =>
    simp only [hresult] at h
    split at h
    next hsame =>
      cases h
      obtain rfl := beq_iff_eq.1 hsame
      exact .merged hdry hmerge (hkeeps.readText.1 hread) hresult
        (hkeeps.setsFile (FileTree.setsFile_of_readText hread))
    · obtain ⟨tree', htree, h⟩ := Except.exists_of_bind_eq_ok h
      cases h
      exact .merged hdry hmerge (hkeeps.readText.1 hread) hresult
        (hkeeps.setsFile (FileTree.setsFile_write htree))

variable (hmerge : settings.merge = false) (hexists : made.exists a.target = true)
include hmerge hexists

theorem effect_of_overwrite (hoverwrite : settings.overwrite = true)
    (h : Writing.overwrite made a = .ok w) :
    Writing.Effect settings tree a w := by
  have hkeeps : tree.KeepsFiles made := hmade ▸ FileTree.keepsFiles_withDirectories tree a.directory
  obtain ⟨tree', htree, h⟩ := Except.exists_of_bind_eq_ok h
  cases h
  obtain ⟨old, hold⟩ := FileTree.exists_file_of_write htree hexists
  exact .overwritten hdry hmerge hoverwrite (hkeeps.find_file.1 hold)
    (hkeeps.setsFile (FileTree.setsFile_write htree))

theorem effect_of_rename (hoverwrite : settings.overwrite = false)
    (h : Writing.rename made a = .ok w) :
    Writing.Effect settings tree a w := by
  have hkeeps : tree.KeepsFiles made := hmade ▸ FileTree.keepsFiles_withDirectories tree a.directory
  unfold Writing.rename at h
  generalize hfree : Writing.freePath? made a.target = free at h
  cases free with
  | none =>
    cases h
    exact .exhausted hdry hmerge hoverwrite (Writing.isExhausted_of_freePath? hfree) hkeeps
  | some path =>
    obtain ⟨tree', htree, h⟩ := Except.exists_of_bind_eq_ok h
    cases h
    obtain ⟨n, hfound, rfl⟩ := Writing.isFirstFree_of_freePath? hfree
    have hsets := hkeeps.setsFile (FileTree.setsFile_write htree)
    -- something is at the target, and nothing where the artifact goes
    have hapart : a.place ≠ Path.location (Writing.numbered a.target n) := by
      intro heq
      obtain ⟨e, he⟩ := FileTree.exists_eq_true_iff.1 hexists
      have hat : made.at? a.place = some e := (FileTree.find_eq_ok_iff.1 he).2.2.1
      rw [heq, FileTree.at?_of_write htree hfound.free] at hat
      exact nomatch hat
    subst hmade
    exact .renamed hdry hmerge hoverwrite hfound (isFirstFree_of_withDirectories hfound)
      (exists_eq_false_of_withDirectories hfound.free) hsets (by rw [hsets.contents, if_neg hapart])

end

/-- **What a written artifact has done.** -/
theorem effect_of_write (h : a.write settings tree = .ok w) : Writing.Effect settings tree a w := by
  rw [write] at h
  split at h
  next hdry =>
    cases h
    exact .planned hdry
  next hdry =>
    replace hdry := Bool.eq_false_iff.2 hdry
    split at h
    next hnone =>
      cases h
      exact .unplaced hdry hnone
    next made hmade =>
      -- making the directory keeps all files, so that what the write changes in the tree with it
      -- is what it changes in the tree before
      obtain ⟨-, hmade⟩ := of_withDirectory?_eq_some hmade
      have hkeeps : tree.KeepsFiles made :=
        hmade ▸ FileTree.keepsFiles_withDirectories tree a.directory
      split at h
      next hexists =>
        obtain ⟨tree', htree, h⟩ := Except.exists_of_bind_eq_ok h
        cases h
        replace hexists : made.exists a.target = false := by simpa using hexists
        have hfree : made.contentAt? a.place = none := by
          rw [FileTree.contentAt?, place, FileTree.at?_of_write htree hexists]
        exact .created hdry (exists_eq_false_of_withDirectories (hmade ▸ hexists))
          (by rw [← hkeeps, hfree])
          (hkeeps.setsFile (FileTree.setsFile_write htree))
      next hexists =>
        replace hexists : made.exists a.target = true := by simpa using hexists
        split at h
        next hmerge => exact effect_of_merge hdry hmade hmerge h
        next hmerge =>
          replace hmerge := Bool.eq_false_iff.2 hmerge
          split at h
          next hoverwrite => exact effect_of_overwrite hdry hmade hmerge hexists hoverwrite h
          next hoverwrite =>
            exact effect_of_rename hdry hmade hmerge hexists (Bool.eq_false_iff.2 hoverwrite) h

/-- Only the directory of the artifact is made. -/
theorem makesOnly_of_write (h : a.write settings tree = .ok w) :
    tree.MakesOnly w.tree a.directory := by
  rcases write_cases h with ⟨htree, -⟩ | ⟨made, hmade, hfile, -⟩
  · rw [htree]
    exact ⟨fun _ => id, fun _ => .inl⟩
  · obtain ⟨-, rfl⟩ := of_withDirectory?_eq_some hmade
    exact FileTree.makesOnly_of_writesFile hfile

/-- **Writing an artifact changes at most one file, and the outcome tells
which**: the effect is the one the outcome stands for, at most its directory
is made, and an artifact that is neither merged nor overwritten is skipped if
no number is free beside its target. -/
theorem outcome_tells (h : a.write settings tree = .ok w) :
    Writing.Effect settings tree a w ∧ tree.MakesOnly w.tree a.directory ∧
    (settings.dryRun = false → settings.merge = false → settings.overwrite = false → tree.exists a.target = true →
      Writing.IsExhausted tree a.target → w.outcome.action = .skipped) := by
  have heffect := effect_of_write h
  refine ⟨heffect, makesOnly_of_write h, fun hdry hmerge hoverwrite hexists hexhausted => ?_⟩
  cases heffect with
  | unplaced | unmerged | exhausted => rfl
  | planned dry => exact absurd (dry.symm.trans hdry) (by decide)
  | created _ absent => exact absurd (absent.symm.trans hexists) (by decide)
  | merged _ merge => exact absurd (merge.symm.trans hmerge) (by decide)
  | overwritten _ _ overwrite => exact absurd (overwrite.symm.trans hoverwrite) (by decide)
  | @renamed _ n _ _ _ found _ absent =>
    exact absurd (absent.symm.trans (hexhausted n found.low found.high)) (by decide)

/-- An empty class under `out`. -/
def emptyOrders : Artifact :=
  .ofUnit .record "out" { kind := .class, type := .named "a.Orders" }

/-- A tree with a file where it goes. -/
def ordersTaken : FileTree where
  entries := [(["out"], .directory), (["out", "a"], .directory),
    (["out", "a", "Orders.java"], .file (.text "old"))]

/-- Beside the file the class gets the first number. -/
theorem outcome_tells_emptyOrders : ∃ w, emptyOrders.write { merge := false } ordersTaken = .ok w ∧
    w.outcome = ⟨.renamed, "out/a/Orders.java.1"⟩ ∧
    Writing.Effect { merge := false } ordersTaken emptyOrders w := by
  have hrenamed : (emptyOrders.write { merge := false } ordersTaken).toOption.map (·.outcome) =
      some ⟨.renamed, "out/a/Orders.java.1"⟩ := by decide +kernel
  cases hw : emptyOrders.write { merge := false } ordersTaken with
  | error fault =>
    rw [hw] at hrenamed
    exact nomatch hrenamed
  | ok w =>
    rw [hw] at hrenamed
    exact ⟨w, rfl, Option.some.inj hrenamed, (outcome_tells hw).1⟩

end Artifact

end TableMapper
