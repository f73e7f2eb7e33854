import Mathlib.Data.List.Forall2
import TableMapper.Proofs.Run.Outcomes

/-!
# Artifacts with the same target

A run writes its artifacts one after another, and nothing keeps two of them
from having the same target. Without merging the later one finds the target
taken and says so: **it is written over the other one, or beside it, or not at
all, each time with a warning** (`Writing.Writes.exists_warning`).

With merging there is no such warning, as the later artifact is merged into
the other one like into any file. What can be said then is that **an artifact
stands as it was rendered if it goes alone to its place**
(`Writing.Writes.isWritten_of_alone`). That the condition is needed is shown
by artifacts that replace others: they are all merged, and what they were
merged into is gone (`Writing.exists_writes_of_replaces`).
-/

namespace TableMapper

namespace Artifact

variable {a b : Artifact} {settings : Settings} {t t' : FileTree} {w : Written}

/-! ## Targets that are taken -/

/-- The warning that the directory of an artifact cannot be made. -/
def unplaced (a : Artifact) : Warning :=
  .directory (Path.parent a.target) a.fileName

/-- **A warning tells of the target of an artifact**: a file there was written
over or was left alone, or its directory could not be made. -/
inductive TellsOf (a : Artifact) : Warning → Prop
  | overwritten : TellsOf a (.overwritten a.target)
  | renamed (saved : String) : TellsOf a (.renamed a.target saved)
  | exhausted : TellsOf a (.suffixesExhausted a.target)
  | unplaced : TellsOf a a.unplaced

/-- **A target is taken**: its directory cannot be made, or is there with
something at the place of the target. -/
def IsTaken (target : String) (t : FileTree) : Prop :=
  Writing.withDirectory? t target = none ∨
    t.HasDirectory (Path.location (Path.parent target)) ∧ (t.at? (Path.location target)).isSome

/-- A directory that cannot be made cannot be made later. -/
theorem withDirectory?_eq_none {target : String} (hgrows : t.Grows t')
    (h : Writing.withDirectory? t target = none) :
    Writing.withDirectory? t' target = none := by
  unfold Writing.withDirectory? at h ⊢
  by_cases hempty : target.isEmpty = true
  · rw [if_pos hempty] at h
    exact nomatch h
  · rw [if_neg hempty] at h ⊢
    by_cases hparent : (Path.parent target).isEmpty = true
    · exact if_pos hparent
    · show (if (Path.parent target).isEmpty = true then none else _) = _
      rw [if_neg hparent]
      cases hmade : t'.makeDirectories (Path.parent target) with
      | error fault => rfl
      | ok made =>
        -- no file is in the way later, so none was before
        have hclear := hgrows.isClear (FileTree.makeDirectories_eq_ok_iff.1 hmade).1
        replace h : (t.makeDirectories (Path.parent target)).toOption = none :=
          (if_neg hparent).symm.trans h
        rw [FileTree.makeDirectories_eq_ok_iff.2 ⟨hclear, rfl⟩] at h
        exact nomatch h

/-- **A target that is taken stays so.** -/
theorem IsTaken.grows {target : String} (h : IsTaken target t) (hgrows : t.Grows t') :
    IsTaken target t' := by
  rcases h with hnone | ⟨hdirectory, hplace⟩
  · exact .inl (withDirectory?_eq_none hgrows hnone)
  · exact .inr ⟨hgrows.hasDirectory hdirectory, hgrows.isSome_at? hplace⟩

section

variable (hdry : settings.dryRun = false)
include hdry

/-- An artifact whose directory cannot be made is skipped. -/
theorem write_of_withDirectory? (hnone : Writing.withDirectory? t a.target = none) :
    a.write settings t = .ok ⟨t, ⟨.skipped, a.target⟩, [a.unplaced]⟩ := by
  rw [write, hdry, if_neg (by decide), hnone]
  rfl

/-- Once its directory has been made an artifact, or what was there before,
is at its place. -/
theorem isSome_at?_of_write {made : FileTree}
    (hmade : Writing.withDirectory? t a.target = some made)
    (h : a.write settings t = .ok w) : w.tree.HasDirectory a.directory ∧
    (w.tree.at? a.place).isSome := by
  rw [write, hdry, if_neg (by decide), hmade] at h
  obtain ⟨hclear, rfl⟩ := of_withDirectory?_eq_some hmade
  have hdirectory := hclear.hasDirectory
  cases hexists : (t.withDirectories a.directory).exists a.target with
  | false =>
    simp only [hexists, Bool.not_false, if_true] at h
    obtain ⟨tree, htree, h⟩ := Except.exists_of_bind_eq_ok h
    cases h
    have hcontent := ((FileTree.setsFile_write htree).contents a.place).trans (if_pos rfl)
    rw [FileTree.contentAt?_eq_some_iff] at hcontent
    exact ⟨(FileTree.grows_write htree).hasDirectory hdirectory, hcontent ▸ Option.isSome_some⟩
  | true =>
    simp only [hexists, Bool.not_true, Bool.false_eq_true, if_false] at h
    -- whatever is done with the file at the target, it stays
    have hfile : (t.withDirectories a.directory).WritesFile w.tree := by
      split at h
      · exact (of_merge_eq_ok h).1
      · split at h
        · exact (of_overwrite_eq_ok h).1
        · exact (of_rename_eq_ok h).1
    obtain ⟨e, he⟩ := FileTree.exists_eq_true_iff.1 hexists
    have hplace : (t.withDirectories a.directory).at? a.place = some e :=
      (FileTree.find_eq_ok_iff.1 he).2.2.1
    exact ⟨hfile.grows.hasDirectory hdirectory,
      hfile.grows.isSome_at? (hplace ▸ Option.isSome_some)⟩

/-- **Once an artifact has been written its target is taken.** -/
theorem isTaken_of_write (h : a.write settings t = .ok w) : IsTaken a.target w.tree := by
  cases hmade : Writing.withDirectory? t a.target with
  | none =>
    cases (write_of_withDirectory? hdry hmade).symm.trans h
    exact .inl hmade
  | some made => exact .inr (isSome_at?_of_write hdry hmade h)

/-- **Without merging an artifact whose target is taken leaves a warning.** -/
theorem exists_warning_of_isTaken (hmerge : settings.merge = false)
    (hname : Path.NamesFile a.target)
    (htaken : IsTaken a.target t) (h : a.write settings t = .ok w) : ∃ warning ∈ w.warnings,
    a.TellsOf warning := by
  rcases htaken with hnone | ⟨hdirectory, hplace⟩
  · cases (write_of_withDirectory? hdry hnone).symm.trans h
    exact ⟨_, List.mem_singleton_self _, .unplaced⟩
  · have hthere : t.exists a.target = true := by
      rw [FileTree.exists_eq hname hdirectory.isClear]
      exact hplace
    cases effect_of_write h with
    | planned dry => exact absurd (dry.symm.trans hdry) (by decide)
    | created _ absent => exact absurd (absent.symm.trans hthere) (by decide)
    | merged _ merge | unmerged _ merge => exact absurd (merge.symm.trans hmerge) (by decide)
    | unplaced => exact ⟨_, List.mem_singleton_self _, .unplaced⟩
    | overwritten => exact ⟨_, List.mem_singleton_self _, .overwritten⟩
    | renamed => exact ⟨_, List.mem_singleton_self _, .renamed _⟩
    | exhausted => exact ⟨_, List.mem_singleton_self _, .exhausted⟩

end

/-! ## Artifacts that stand in a tree -/

/-- With merging an artifact changes no file but the one at its place. -/
theorem contentAt?_of_write (hmerge : settings.merge = true) (h : a.write settings t = .ok w)
    {place : Location}
    (hother : place ≠ a.place) : w.tree.contentAt? place = t.contentAt? place := by
  cases effect_of_write h with
  | planned | unplaced => rfl
  | created _ _ _ sets => exact (sets.contents place).trans (if_neg hother)
  | merged _ _ _ _ sets => exact (sets.contents place).trans (if_neg hother)
  | unmerged _ _ _ _ keeps => exact keeps place
  | overwritten _ merge | renamed _ merge | exhausted _ merge =>
    exact absurd (merge.symm.trans hmerge) (by decide)

/-- What stands in a tree stands in a later one with the same file at its
place. -/
theorem IsWritten.grows (h : a.IsWritten t) (hgrows : t.Grows t')
    (hsame : t'.contentAt? a.place = t.contentAt? a.place) :
    a.IsWritten t' where
  file := by
    rw [← FileTree.contentAt?_eq_some_iff, hsame, FileTree.contentAt?_eq_some_iff]
    exact h.file
  directory := hgrows.hasDirectory h.directory

theorem IsWritten.readText (h : a.IsWritten t) (hname : Path.NamesFile a.target) :
    t.readText a.target = .ok a.render := by
  rw [FileTree.readText_eq_ok_iff, FileTree.find_eq hname h.directory.isClear,
    show Path.location a.target = a.place from rfl, h.file]

/-- **Where no file was an artifact stands then**, unless its directory could
not be made. -/
theorem isWritten_of_write (hdry : settings.dryRun = false) (hmerge : settings.merge = true)
    (h : a.write settings t = .ok w) (hfree : t.contentAt? a.place = none) :
    a.IsWritten w.tree ∨ a.unplaced ∈ w.warnings := by
  cases hmade : Writing.withDirectory? t a.target with
  | none =>
    cases (write_of_withDirectory? hdry hmade).symm.trans h
    exact .inr (List.mem_singleton_self _)
  | some made =>
    obtain ⟨hdirectory, -⟩ := isSome_at?_of_write hdry hmade h
    have hread : ∀ text, t.readText a.target ≠ .ok text := fun text htext => by
      have hfile := FileTree.isFileAt_of_readText htext
      rw [FileTree.isFileAt_eq_isSome, show Path.location a.target = a.place from rfl,
        hfree] at hfile
      exact Bool.noConfusion hfile
    cases effect_of_write h with
    | planned dry => exact absurd (dry.symm.trans hdry) (by decide)
    | overwritten _ merge | renamed _ merge | exhausted _ merge =>
      exact absurd (merge.symm.trans hmerge) (by decide)
    | merged _ _ read => exact absurd read (hread _)
    | unmerged _ _ read => exact absurd read (hread _)
    | unplaced => exact .inr (List.mem_singleton_self _)
    | created _ _ _ sets =>
      have hcontent := (sets.contents a.place).trans (if_pos rfl)
      exact .inl ⟨FileTree.contentAt?_eq_some_iff.1 hcontent, hdirectory⟩

/-! ## Artifacts that replace others -/

/-- **An artifact replaces another one** with its target: it can be merged
into it, and nothing of the other one is left. -/
structure Replaces (b a : Artifact) : Prop where
  target : b.target = a.target
  merges : b.mergeInto a.render = .ok b.render

theorem Replaces.place_eq (h : b.Replaces a) : b.place = a.place := by
  rw [place, place, h.target]

/-- **What is replaced is gone**, and everything else stands as before. -/
theorem Replaces.exists_write (h : b.Replaces a) (hdry : settings.dryRun = false)
    (hmerge : settings.merge = true)
    (hgoes : b.GoesToFile) (hwritten : a.IsWritten t) :
    ∃ w, b.write settings t = .ok w ∧ w.warnings = [] ∧
      b.IsWritten w.tree ∧ ∀ c : Artifact, c.IsWritten t → c.place ≠ b.place →
      c.IsWritten w.tree := by
  have hplace := h.place_eq
  have hdirectory : t.HasDirectory b.directory := by
    rw [directory, h.target]
    exact hwritten.directory
  have hread : t.readText b.target = .ok a.render := by
    have hname : Path.NamesFile a.target := h.target ▸ hgoes.target
    rw [h.target]
    exact hwritten.readText hname
  have hexists : t.exists b.target = true :=
    FileTree.exists_eq_true_iff.2 ⟨_, FileTree.readText_eq_ok_iff.1 hread⟩
  -- a file that holds the text already is not written
  obtain ⟨tree, htree, hsets, hgrows⟩ : ∃ tree,
      (if b.render == a.render then pure t else t.writeText b.target b.render) = .ok tree ∧
        t.SetsFile tree b.target b.render ∧ t.Grows tree := by
    by_cases hsame : b.render = a.render
    · exact ⟨t, if_pos (by simpa using hsame),
        FileTree.setsFile_of_readText (hsame ▸ hread), .refl t⟩
    · have htree := FileTree.write_eq hgoes.target hdirectory (t := t)
        (by rw [show Path.location b.target = a.place from hplace, hwritten.file]; simp)
          (.text b.render)
      exact ⟨_, (if_neg (by simpa using hsame)).trans htree, FileTree.setsFile_write htree,
        FileTree.grows_write htree⟩
  have hwrite : b.write settings t = .ok ⟨tree, ⟨.merged, b.target⟩, []⟩ := by
    rw [write, hdry, if_neg (by decide), withDirectory?_eq hgoes hdirectory.isClear,
      hdirectory.withDirectories_eq]
    simp only [hexists, Bool.not_true, Bool.false_eq_true, if_false, hmerge, if_true]
    simp only [Writing.merge, hread, h.merges, bind, Except.bind]
    by_cases hsame : (b.render == a.render) = true
    · rw [if_pos hsame] at htree ⊢
      cases htree
      rfl
    · rw [if_neg hsame] at htree ⊢
      rw [htree]
      rfl
  have hcontent := (hsets.contents b.place).trans (if_pos rfl)
  exact ⟨_, hwrite, rfl,
    ⟨FileTree.contentAt?_eq_some_iff.1 hcontent, hgrows.hasDirectory hdirectory⟩,
    fun c hc hne => hc.grows hgrows ((hsets.contents c.place).trans (if_neg hne))⟩

end Artifact

/-! ## Several artifacts -/

namespace Writing

variable {settings : Settings} {t t' : FileTree} {artifacts : List Artifact}
  {a b : Artifact} {ws : List Written}

/-- Each of several artifacts is written into a tree that has grown. -/
theorem Writes.exists_write (h : Writes settings t artifacts ws t') (ha : a ∈ artifacts) :
    ∃ before w, t.Grows before ∧ a.write settings before = .ok w ∧ w ∈ ws ∧ w.tree.Grows t' := by
  induction h with
  | nil t => exact absurd ha List.not_mem_nil
  | cons first others ih =>
    rcases List.mem_cons.1 ha with rfl | ha
    · exact ⟨_, _, .refl _, first, List.mem_cons_self, others.grows⟩
    · obtain ⟨before, w, hgrows, hwrite, hmem, hlater⟩ := ih ha
      exact ⟨before, w, (Artifact.grows_write first).trans hgrows, hwrite,
        List.mem_cons_of_mem _ hmem, hlater⟩

section

variable (hdry : settings.dryRun = false)
include hdry

/-- **Without merging an artifact behind another one with its target leaves a
warning.** -/
theorem Writes.exists_warning (hmerge : settings.merge = false)
    (h : Writes settings t artifacts ws t')
    (hnames : ∀ a ∈ artifacts, Path.NamesFile a.target) (hsub : [a, b].Sublist artifacts)
    (hsame : a.target = b.target) :
    ∃ warning ∈ ws.flatMap (·.warnings), b.TellsOf warning := by
  obtain ⟨front, rest, rfl, ha, hb⟩ := List.cons_sublist_iff.1 hsub
  replace hb : b ∈ rest := List.singleton_sublist.1 hb
  obtain ⟨ws₁, ws₂, mid, rfl, hfront, hrest⟩ := h.exists_append
  obtain ⟨_, w, -, hwrite, -, hgrows⟩ := hfront.exists_write ha
  obtain ⟨before, w', hgrows', hwrite', hmem, -⟩ := hrest.exists_write hb
  have htaken : Artifact.IsTaken b.target before :=
    hsame ▸ ((Artifact.isTaken_of_write hdry hwrite).grows hgrows).grows hgrows'
  obtain ⟨warning, hwarning, htells⟩ :=
    Artifact.exists_warning_of_isTaken hdry hmerge
      (hnames b (List.mem_append_right _ hb)) htaken hwrite'
  exact ⟨warning, List.mem_flatMap.2 ⟨w', List.mem_append_right _ hmem, hwarning⟩, htells⟩

variable (hmerge : settings.merge = true)
include hmerge

omit hdry in
/-- With merging files elsewhere hold what they held. -/
theorem Writes.contentAt?_eq (h : Writes settings t artifacts ws t') {place : Location}
    (hother : ∀ a ∈ artifacts, place ≠ a.place) : t'.contentAt? place = t.contentAt? place := by
  induction h with
  | nil t => rfl
  | cons first others ih =>
    obtain ⟨hfirst, hrest⟩ := List.forall_mem_cons.1 hother
    rw [ih hrest, Artifact.contentAt?_of_write hmerge first hfirst]

/-- **With merging an artifact that goes alone to its place stands there in
the end**, unless its directory could not be made. -/
theorem Writes.isWritten_of_alone (h : Writes settings t artifacts ws t') (ha : a ∈ artifacts)
    (hfree : t.contentAt? a.place = none) (halone : (artifacts.map (·.place)).count a.place = 1) :
    a.IsWritten t' ∨ a.unplaced ∈ ws.flatMap (·.warnings) := by
  obtain ⟨front, rest, rfl⟩ := List.append_of_mem ha
  rw [List.map_append, List.map_cons, List.count_append, List.count_cons_self] at halone
  have hother : ∀ {others : List Artifact}, (others.map (·.place)).count a.place = 0 →
      ∀ b ∈ others, a.place ≠ b.place := by
    intro others hcount b hb heq
    rw [heq] at hcount
    exact List.count_eq_zero.1 hcount (List.mem_map_of_mem hb)
  obtain ⟨ws₁, ws₂, mid, rfl, hfront, hrest⟩ := h.exists_append
  cases hrest with
  | @cons _ _ _ _ w ws first others =>
    -- no file is at the place before, and none of the others changes the one that is made
    have hbefore := (hfront.contentAt?_eq hmerge (hother (by omega))).trans hfree
    rcases Artifact.isWritten_of_write hdry hmerge first hbefore with hwritten | hwarning
    · exact .inl (hwritten.grows others.grows (others.contentAt?_eq hmerge (hother (by omega))))
    · exact .inr (List.mem_flatMap.2 ⟨w, List.mem_append_right _ List.mem_cons_self, hwarning⟩)

omit hdry hmerge in
theorem map_place_of_replaces {first second : List Artifact}
    (h : List.Forall₂ (·.Replaces ·) second first) :
    second.map (·.place) = first.map (·.place) := by
  induction h with
  | nil => rfl
  | cons replaces others ih => rw [List.map_cons, List.map_cons, replaces.place_eq, ih]

/-- **Artifacts that replace others are all merged**, without a warning, and
stand in the tree then in place of the others. -/
theorem exists_writes_of_replaces {first second : List Artifact}
    (hreplaces : List.Forall₂ (·.Replaces ·) second first)
    (hgoes : ∀ b ∈ second, b.GoesToFile) (hplaces : second.Pairwise fun a b => a.place ≠ b.place)
    (hwritten : ∀ a ∈ first, a.IsWritten t) : ∃ ws t', Writes settings t second ws t' ∧
    ws.flatMap (·.warnings) = [] ∧
      (∀ b ∈ second, b.IsWritten t') ∧
      ∀ c : Artifact, c.IsWritten t → (∀ b ∈ second, c.place ≠ b.place) → c.IsWritten t' := by
  induction hreplaces generalizing t with
  | nil => exact ⟨[], t, .nil t, rfl, List.forall_mem_nil _, fun _ hc _ => hc⟩
  | @cons b a second first hreplace others ih =>
    obtain ⟨hfirst, hrest⟩ := List.pairwise_cons.1 hplaces
    obtain ⟨hgoesB, hgoesRest⟩ := List.forall_mem_cons.1 hgoes
    obtain ⟨hwrittenA, hwrittenRest⟩ := List.forall_mem_cons.1 hwritten
    obtain ⟨w, hwrite, hwarnings, hwrittenB, hkept⟩ :=
      hreplace.exists_write hdry hmerge hgoesB hwrittenA
    have hothers : ∀ c ∈ first, c.IsWritten w.tree := by
      intro c hc
      -- each of them stands at the place of one that is still to be written
      have hplace : c.place ∈ second.map (·.place) :=
        map_place_of_replaces others ▸ List.mem_map_of_mem hc
      obtain ⟨d, hd, heq⟩ := List.mem_map.1 hplace
      exact hkept c (hwrittenRest c hc) fun hsame => hfirst d hd (hsame.symm.trans heq.symm)
    obtain ⟨ws, t', hwrites, hnone, hstand, hkept'⟩ := ih hgoesRest hrest hothers
    refine ⟨w :: ws, t', .cons hwrite hwrites, ?_,
      List.forall_mem_cons.2 ⟨hkept' b hwrittenB hfirst, hstand⟩, ?_⟩
    · rw [List.flatMap_cons, hwarnings, hnone]
      rfl
    · intro c hc hne
      obtain ⟨hneB, hneRest⟩ := List.forall_mem_cons.1 hne
      exact hkept' c (hkept c hc hneB) hneRest

end

end Writing

end TableMapper
