import TableMapper.Proofs.Files.Directories
import TableMapper.Proofs.Table.Introspected
import TableMapper.Run.Writing

/-!
# Writing artifacts twice

An artifact for which there is room is created, and then stands in the tree
as it was rendered (`Artifact.write_of_hasRoom`). Written again it leaves the
tree as it is: **it is merged if it can be merged into its own text, and
skipped if it cannot** (`Artifact.IsWritten.write_eq`). Whether several
artifacts are all merged the second time is settled by this and by whether
one of them stands where another one needs a directory
(`Writing.merges_again_iff`).
-/

namespace TableMapper

/-! ## One artifact -/

namespace Artifact

variable {a b : Artifact} {settings : Settings} {t t' : FileTree} {w : Written}

/-- The place of an artifact. -/
def place (a : Artifact) : Location :=
  Path.location a.target

/-- The place of its directory. -/
def directory (a : Artifact) : Location :=
  Path.location (Path.parent a.target)

/-- **An artifact goes to a file** in a directory that has a name. -/
structure GoesToFile (a : Artifact) : Prop where
  target : Path.NamesFile a.target
  parent : Path.parent a.target ≠ ""

/-- **There is room for an artifact**: nothing is at its place, and its
directory can be made. -/
structure HasRoom (a : Artifact) (t : FileTree) : Prop where
  free : t.at? a.place = none
  clear : t.IsClear a.directory

/-- **An artifact stands in a tree** as it was rendered. -/
structure IsWritten (a : Artifact) (t : FileTree) : Prop where
  file : t.at? a.place = some (.file (.text a.render))
  directory : t.HasDirectory a.directory

/-- An artifact stands at the place of the directory of another one, or on
the way there. -/
def Blocks (a b : Artifact) : Prop :=
  a.place <+: b.directory

theorem GoesToFile.not_blocks_self (h : a.GoesToFile) : ¬ a.Blocks a := by
  obtain ⟨name, hlocation⟩ := h.target.location
  intro hblocks
  have hlength := hblocks.length_le
  rw [place, directory, hlocation, List.length_append, List.length_singleton] at hlength
  omega

theorem withDirectory?_eq (h : a.GoesToFile) (hclear : t.IsClear a.directory) :
    Writing.withDirectory? t a.target = some (t.withDirectories a.directory) := by
  rw [Writing.withDirectory?, if_neg (by simpa using h.target.ne_empty),
    if_neg (by simpa using h.parent), FileTree.makeDirectories_eq_ok_iff.2 ⟨hclear, rfl⟩]
  rfl

/-- A directory that is made was clear, and is there then. -/
theorem of_withDirectory?_eq_some (h : Writing.withDirectory? t a.target = some t') :
    t.IsClear a.directory ∧ t.withDirectories a.directory = t' := by
  rw [Writing.withDirectory?] at h
  split at h
  next hempty =>
    -- the empty path leads to the start, which is a directory
    cases h
    have hstart : a.directory = [] := by
      rw [directory, String.isEmpty_iff.1 hempty]
      decide +kernel
    have hthere : t.HasDirectory a.directory := fun place hplace => by
      rw [hstart, List.prefix_nil] at hplace
      rw [hplace]
      rfl
    exact ⟨hthere.isClear, hthere.withDirectories_eq⟩
  split at h
  · exact nomatch h
  · cases hresult : t.makeDirectories (Path.parent a.target) with
    | error fault =>
      rw [hresult] at h
      exact nomatch h
    | ok made =>
      rw [hresult] at h
      cases h
      exact FileTree.makeDirectories_eq_ok_iff.1 hresult

/-- **There is room where nothing is and a directory can be made.** -/
theorem hasRoom_of_withDirectory? (h : Path.NamesFile a.target) (hfree : t.exists a.target = false)
    (hdirectory : (Writing.withDirectory? t a.target).isSome) : a.GoesToFile ∧ a.HasRoom t := by
  obtain ⟨made, hmade⟩ := Option.isSome_iff_exists.1 hdirectory
  have hclear := (of_withDirectory?_eq_some hmade).1
  refine ⟨⟨h, fun hparent => ?_⟩, ?_, hclear⟩
  · rw [Writing.withDirectory?, if_neg (by simpa using h.ne_empty), hparent] at hmade
    exact nomatch hmade
  · rw [FileTree.exists_eq h hclear] at hfree
    exact Option.isSome_eq_false_iff.1 hfree |> Option.isNone_iff_eq_none.1

/-- The tree with a new artifact, and its directory. -/
def createdIn (a : Artifact) (t : FileTree) : FileTree :=
  (t.withDirectories a.directory).set a.place (.file (.text a.render))

theorem ne_nil_of_hasRoom (h : a.HasRoom t) : a.place ≠ [] :=
  FileTree.ne_nil_of_at? (t := t) (by simp [h.free])

/-- **What a new artifact changes**: it is at its place, and the directories
on the way to it are there. -/
theorem at?_createdIn (h : a.HasRoom t) (other : Location) : (a.createdIn t).at? other =
    if other = a.place then some (.file (.text a.render))
    else if other <+: a.directory ∧ t.at? other = none then some .directory else t.at? other := by
  rw [createdIn, FileTree.at?_set _ _ (ne_nil_of_hasRoom h), FileTree.at?_withDirectories]

/-- A new artifact stands in the tree. -/
theorem HasRoom.isWritten_createdIn (h : a.HasRoom t) (hself : ¬ a.Blocks a) :
    a.IsWritten (a.createdIn t) where
  file := by rw [at?_createdIn h, if_pos rfl]
  directory := by
    intro other hother
    have hne : other ≠ a.place := fun heq => hself (show a.place <+: _ from heq ▸ hother)
    rw [createdIn, FileTree.at?_set _ _ (ne_nil_of_hasRoom h), if_neg hne]
    exact h.clear.hasDirectory other hother

/-- Other artifacts stand in the tree as before. -/
theorem IsWritten.createdIn (hb : b.IsWritten t) (h : a.HasRoom t) (hne : b.place ≠ a.place)
    (hblocks : ¬ a.Blocks b) :
    b.IsWritten (a.createdIn t) where
  file := by
    rw [at?_createdIn h, if_neg hne, if_neg (by simp [hb.file]), hb.file]
  directory := by
    intro other hother
    have hne' : other ≠ a.place := fun heq => hblocks (show a.place <+: _ from heq ▸ hother)
    have hat := hb.directory other hother
    rw [at?_createdIn h, if_neg hne', if_neg (by simp [hat]), hat]

/-- There is room for other artifacts as before. -/
theorem HasRoom.createdIn (hb : b.HasRoom t) (h : a.HasRoom t) (hne : b.place ≠ a.place)
    (hblocks : ¬ a.Blocks b)
    (hblocks' : ¬ b.Blocks a) : b.HasRoom (a.createdIn t) where
  free := by
    rw [at?_createdIn h, if_neg hne, if_neg fun hway => hblocks' hway.1, hb.free]
  clear := by
    intro other hother
    have hne' : other ≠ a.place := fun heq => hblocks (show a.place <+: _ from heq ▸ hother)
    have hclear := hb.clear other hother
    rw [FileTree.isFileAt, at?_createdIn h, if_neg hne']
    by_cases hmissing : other <+: a.directory ∧ t.at? other = none
    · rw [if_pos hmissing]
    · rw [if_neg hmissing]
      exact hclear

section

variable (hdry : settings.dryRun = false)
include hdry

/-- **Where there is room an artifact is created.** -/
theorem write_of_hasRoom (h : a.GoesToFile) (hroom : a.HasRoom t) :
    a.write settings t = .ok ⟨a.createdIn t, ⟨.created, a.target⟩, []⟩ := by
  have hfree : (t.withDirectories a.directory).at? a.place = none := by
    rw [FileTree.at?_withDirectories, if_neg fun hway => h.not_blocks_self hway.1, hroom.free]
  have hmade := hroom.clear.hasDirectory
  have hexists : (t.withDirectories a.directory).exists a.target = false := by
    rw [FileTree.exists_eq h.target hmade.isClear]
    exact congrArg Option.isSome hfree
  rw [write, hdry, if_neg (by decide), withDirectory?_eq h hroom.clear]
  simp only [hexists, Bool.not_false, if_true, FileTree.writeText]
  rw [FileTree.write_eq h.target hmade
    (by rw [show Path.location a.target = a.place from rfl, hfree]; simp)]
  rfl

/-- **What writing an artifact again leads to**: nothing changes, and the
artifact is merged or skipped. -/
theorem IsWritten.write_eq (hmerge : settings.merge = true) (h : a.GoesToFile)
    (hown : ∀ text, a.mergeInto a.render = .ok text → text = a.render) (hwritten : a.IsWritten t) :
    a.write settings t = .ok (match a.mergeInto a.render with
      | .ok _ => ⟨t, ⟨.merged, a.target⟩, []⟩
      | .error reason => ⟨t, ⟨.skipped, a.target⟩, [.unmerged ⟨a.fileName, reason⟩]⟩) := by
  have hclear := hwritten.directory.isClear
  have hfind : t.find a.target = .ok (.file (.text a.render)) := by
    rw [FileTree.find_eq h.target hclear, show Path.location a.target = a.place from rfl,
      hwritten.file]
  have hread : t.readText a.target = .ok a.render := by
    rw [FileTree.readText, hfind]
  rw [write, hdry, if_neg (by decide), withDirectory?_eq h hclear,
    hwritten.directory.withDirectories_eq]
  simp only [FileTree.exists, hfind, Bool.not_true, Bool.false_eq_true, if_false, hmerge, if_true]
  simp only [Writing.merge, hread, bind, Except.bind, pure, Except.pure]
  cases hresult : a.mergeInto a.render with
  | error reason => rfl
  | ok text =>
    obtain rfl := hown text hresult
    simp only [beq_self_eq_true, if_true]

end

/-! ## Any artifact -/

/-- A merge reads the file, and writes it at most. -/
theorem of_merge_eq_ok (h : Writing.merge t a = .ok w) :
    t.WritesFile w.tree ∧ ∃ text, t.readText a.target = .ok text := by
  obtain ⟨text, htext, h⟩ := Except.exists_of_bind_eq_ok h
  refine ⟨?_, text, htext⟩
  cases hresult : a.mergeInto text with
  | error reason =>
    rw [hresult] at h
    cases h
    exact .inl rfl
  | ok merged =>
    simp only [hresult] at h
    split at h
    · cases h
      exact .inl rfl
    · obtain ⟨tree, htree, h⟩ := Except.exists_of_bind_eq_ok h
      cases h
      exact .inr ⟨_, _, htree⟩

/-- An artifact that replaces a file is not merged. -/
theorem of_overwrite_eq_ok (h : Writing.overwrite t a = .ok w) :
    t.WritesFile w.tree ∧ w.outcome.action ≠ .merged := by
  obtain ⟨tree, htree, h⟩ := Except.exists_of_bind_eq_ok h
  cases h
  exact ⟨.inr ⟨_, _, htree⟩, by simp⟩

/-- An artifact beside a file is not merged. -/
theorem of_rename_eq_ok (h : Writing.rename t a = .ok w) :
    t.WritesFile w.tree ∧ w.outcome.action ≠ .merged := by
  unfold Writing.rename at h
  generalize Writing.freePath? t a.target = free at h
  cases free with
  | none =>
    cases h
    exact ⟨.inl rfl, by simp⟩
  | some path =>
    obtain ⟨tree, htree, h⟩ := Except.exists_of_bind_eq_ok h
    cases h
    exact ⟨.inr ⟨_, _, htree⟩, by simp⟩

/-- **What writing an artifact can do**: the tree stays as it is, or the
directory is made and at most one file is written; and what is merged is
merged into a text that was read. -/
theorem write_cases (h : a.write settings t = .ok w) : w.tree = t ∧ w.outcome.action ≠ .merged ∨
    ∃ made, Writing.withDirectory? t a.target = some made ∧ made.WritesFile w.tree ∧
      (w.outcome.action = .merged → ∃ text, made.readText a.target = .ok text) := by
  rw [write] at h
  split at h
  · cases h
    exact .inl ⟨rfl, by simp⟩
  · split at h
    · cases h
      exact .inl ⟨rfl, by simp⟩
    next made hmade =>
      refine .inr ⟨made, hmade, ?_⟩
      split at h
      · obtain ⟨tree, htree, h⟩ := Except.exists_of_bind_eq_ok h
        cases h
        exact ⟨.inr ⟨_, _, htree⟩, fun hmerged => nomatch hmerged⟩
      · split at h
        · obtain ⟨hfile, hread⟩ := of_merge_eq_ok h
          exact ⟨hfile, fun _ => hread⟩
        · split at h
          · obtain ⟨hfile, hother⟩ := of_overwrite_eq_ok h
            exact ⟨hfile, fun hmerged => absurd hmerged hother⟩
          · obtain ⟨hfile, hother⟩ := of_rename_eq_ok h
            exact ⟨hfile, fun hmerged => absurd hmerged hother⟩

/-- Writing takes nothing away, whatever the settings. -/
theorem grows_write (h : a.write settings t = .ok w) : t.Grows w.tree := by
  rcases write_cases h with ⟨htree, -⟩ | ⟨made, hmade, hfile, -⟩
  · rw [htree]
    exact .refl t
  · obtain ⟨-, rfl⟩ := of_withDirectory?_eq_some hmade
    exact (FileTree.grows_withDirectories t a.directory).trans hfile.grows

/-- **What is merged stands in the tree**, with its directory. -/
theorem isFileAt_of_write_merged (h : a.write settings t = .ok w)
    (hmerged : w.outcome.action = .merged) :
    w.tree.isFileAt a.place = true ∧ w.tree.HasDirectory a.directory := by
  rcases write_cases h with ⟨-, hother⟩ | ⟨made, hmade, hfile, hread⟩
  · exact absurd hmerged hother
  · obtain ⟨hclear, rfl⟩ := of_withDirectory?_eq_some hmade
    obtain ⟨text, htext⟩ := hread hmerged
    exact ⟨hfile.grows.file _ (FileTree.isFileAt_of_readText htext),
      fun place hplace => hfile.grows.directory _ (hclear.hasDirectory place hplace)⟩

end Artifact

/-! ## Several artifacts -/

namespace Writing

/-- **Artifacts written one after another**, with what each one leads to. -/
inductive Writes (settings : Settings) : FileTree → List Artifact → List Written → FileTree → Prop
  | nil (t : FileTree) : Writes settings t [] [] t
  | cons {t t' : FileTree} {a : Artifact} {rest : List Artifact} {w : Written} {ws : List Written}
      (first : a.write settings t = .ok w) (others : Writes settings w.tree rest ws t') :
      Writes settings t (a :: rest) (w :: ws) t'

section

variable {settings : Settings} {t t' t'' : FileTree} {artifacts : List Artifact}
  {ws ws' : List Written}

/-- What artifacts lead to is determined. -/
theorem Writes.unique (h : Writes settings t artifacts ws t')
    (h' : Writes settings t artifacts ws' t'') :
    ws = ws' ∧ t' = t'' := by
  induction h generalizing ws' with
  | nil t =>
    cases h'
    exact ⟨rfl, rfl⟩
  | cons first others ih =>
    cases h' with
    | cons first' others' =>
      cases first.symm.trans first'
      obtain ⟨rfl, rfl⟩ := ih others'
      exact ⟨rfl, rfl⟩

theorem Writes.length_eq (h : Writes settings t artifacts ws t') :
    ws.length = artifacts.length := by
  induction h with
  | nil t => rfl
  | cons first others ih => rw [List.length_cons, List.length_cons, ih]

/-- **Of artifacts written one after another the first ones come first.** -/
theorem Writes.exists_append {front rest : List Artifact}
    (h : Writes settings t (front ++ rest) ws t') :
    ∃ ws₁ ws₂ mid, ws = ws₁ ++ ws₂ ∧ Writes settings t front ws₁ mid ∧
    Writes settings mid rest ws₂ t' := by
  induction front generalizing t ws with
  | nil => exact ⟨[], ws, t, rfl, .nil t, h⟩
  | cons a front ih =>
    cases h with
    | cons first others =>
      obtain ⟨ws₁, ws₂, mid, rfl, hfront, hrest⟩ := ih others
      exact ⟨_ :: ws₁, ws₂, mid, rfl, .cons first hfront, hrest⟩

/-- Further artifacts are written behind the first ones. -/
theorem Writes.append {others : List Artifact} (h : Writes settings t artifacts ws t')
    (h' : Writes settings t' others ws' t'') :
    Writes settings t (artifacts ++ others) (ws ++ ws') t'' := by
  induction h with
  | nil t => exact h'
  | cons first rest ih => exact .cons first (ih h')

theorem Writes.grows (h : Writes settings t artifacts ws t') : t.Grows t' := by
  induction h with
  | nil t => exact .refl t
  | cons first others ih => exact (Artifact.grows_write first).trans ih

/-- The outcomes of artifacts that are all merged. -/
def allMerged (artifacts : List Artifact) : List WriteOutcome :=
  artifacts.map fun a => ⟨.merged, a.target⟩

/-- **Artifacts that are all merged do not block one another**: in the end
each one is a file, and the directory of each one is there. -/
theorem Writes.not_blocks (h : Writes settings t artifacts ws t')
    (hmerged : ws.map (·.outcome) = allMerged artifacts) :
    ∀ a ∈ artifacts, ∀ b ∈ artifacts, ¬ a.Blocks b := by
  -- each artifact was a file when it was merged, and nothing is taken away later
  have hstands : ∀ a ∈ artifacts, t'.isFileAt a.place = true ∧ t'.HasDirectory a.directory := by
    induction h with
    | nil t => exact List.forall_mem_nil _
    | cons first others ih =>
      obtain ⟨hfirst, hothers⟩ := List.cons.inj hmerged
      refine List.forall_mem_cons.2 ⟨?_, ih hothers⟩
      obtain ⟨hfile, hdirectory⟩ :=
        Artifact.isFileAt_of_write_merged first (congrArg WriteOutcome.action hfirst)
      exact ⟨others.grows.file _ hfile,
        fun place hplace => others.grows.directory place (hdirectory place hplace)⟩
  intro a ha b hb hblocks
  have hfile := (hstands a ha).1
  rw [FileTree.isFileAt_of_directory ((hstands b hb).2 a.place hblocks)] at hfile
  exact Bool.noConfusion hfile

section

variable (hdry : settings.dryRun = false)
include hdry

/-- **Artifacts for which there is room are all created**, and then stand in
the tree, with what stood there before. -/
theorem exists_writes_of_hasRoom (hgoes : ∀ a ∈ artifacts, a.GoesToFile)
    (hroom : ∀ a ∈ artifacts, a.HasRoom t)
    (hplaces : artifacts.Pairwise fun a b => a.place ≠ b.place)
    (hapart : ∀ a ∈ artifacts, ∀ b ∈ artifacts, ¬ a.Blocks b) :
    ∃ ws t', Writes settings t artifacts ws t' ∧ ws.flatMap (·.warnings) = [] ∧
      (∀ a ∈ artifacts, a.IsWritten t') ∧
      ∀ b : Artifact, b.IsWritten t → (∀ a ∈ artifacts, b.place ≠ a.place ∧ ¬ a.Blocks b) →
      b.IsWritten t' := by
  induction artifacts generalizing t with
  | nil => exact ⟨[], t, .nil t, rfl, List.forall_mem_nil _, fun _ hb _ => hb⟩
  | cons a rest ih =>
    obtain ⟨hfirst, hrest⟩ := List.pairwise_cons.1 hplaces
    obtain ⟨hgoesA, hgoesRest⟩ := List.forall_mem_cons.1 hgoes
    obtain ⟨hroomA, hroomRest⟩ := List.forall_mem_cons.1 hroom
    have hmem : ∀ b ∈ rest, b ∈ a :: rest := fun b hb => List.mem_cons_of_mem a hb
    have hroom' : ∀ b ∈ rest, b.HasRoom (a.createdIn t) := fun b hb =>
      (hroomRest b hb).createdIn hroomA (hfirst b hb).symm
        (hapart a List.mem_cons_self b (hmem b hb))
        (hapart b (hmem b hb) a List.mem_cons_self)
    obtain ⟨ws, t', hwrites, hwarnings, hwritten, hkept⟩ :=
      ih hgoesRest hroom' hrest fun b hb c hc => hapart b (hmem b hb) c (hmem c hc)
    refine ⟨_, t', .cons (Artifact.write_of_hasRoom hdry hgoesA hroomA) hwrites, hwarnings, ?_, ?_⟩
    · refine List.forall_mem_cons.2 ⟨?_, hwritten⟩
      refine hkept a (hroomA.isWritten_createdIn hgoesA.not_blocks_self) fun b hb =>
        ⟨hfirst b hb, ?_⟩
      exact hapart b (hmem b hb) a List.mem_cons_self
    · intro b hb hothers
      obtain ⟨⟨hne, hblocks⟩, hothers⟩ := List.forall_mem_cons.1 hothers
      exact hkept b (hb.createdIn hroomA hne hblocks) hothers

variable (hmerge : settings.merge = true) (hgoes : ∀ a ∈ artifacts, a.GoesToFile)
  (hown : ∀ a ∈ artifacts, ∀ text, a.mergeInto a.render = .ok text → text = a.render)
include hmerge hgoes hown

/-- Artifacts that can be merged into their own text are all merged, and
nothing changes. -/
theorem exists_writes_of_isWritten (hwritten : ∀ a ∈ artifacts, a.IsWritten t)
    (hmerges : ∀ a ∈ artifacts, a.mergeInto a.render = .ok a.render) :
    ∃ ws, Writes settings t artifacts ws t ∧ ws.map (·.outcome) = allMerged artifacts ∧
      ws.flatMap (·.warnings) = [] := by
  induction artifacts with
  | nil => exact ⟨[], .nil t, rfl, rfl⟩
  | cons a rest ih =>
    obtain ⟨hgoesA, hgoesRest⟩ := List.forall_mem_cons.1 hgoes
    obtain ⟨hownA, hownRest⟩ := List.forall_mem_cons.1 hown
    obtain ⟨hwrittenA, hwrittenRest⟩ := List.forall_mem_cons.1 hwritten
    obtain ⟨hmergesA, hmergesRest⟩ := List.forall_mem_cons.1 hmerges
    obtain ⟨ws, hwrites, houtcomes, hwarnings⟩ := ih hgoesRest hownRest hwrittenRest hmergesRest
    have hfirst := hwrittenA.write_eq hdry hmerge hgoesA hownA
    rw [hmergesA] at hfirst
    exact ⟨_, .cons hfirst hwrites, congrArg _ houtcomes, hwarnings⟩

/-- What is merged can be merged into its own text. -/
theorem Writes.mergeInto_render (h : Writes settings t artifacts ws t')
    (hwritten : ∀ a ∈ artifacts, a.IsWritten t)
    (hmerged : ws.map (·.outcome) = allMerged artifacts) : ∀ a ∈ artifacts,
    a.mergeInto a.render = .ok a.render := by
  induction h with
  | nil t => exact List.forall_mem_nil _
  | @cons t t' a rest w ws first others ih =>
    obtain ⟨hgoesA, hgoesRest⟩ := List.forall_mem_cons.1 hgoes
    obtain ⟨hownA, hownRest⟩ := List.forall_mem_cons.1 hown
    obtain ⟨hwrittenA, hwrittenRest⟩ := List.forall_mem_cons.1 hwritten
    obtain ⟨hfirst, hothers⟩ := List.cons.inj hmerged
    have hwrite := first.symm.trans (hwrittenA.write_eq hdry hmerge hgoesA hownA)
    cases hresult : a.mergeInto a.render with
    | error reason =>
      rw [hresult] at hwrite
      cases hwrite
      exact nomatch congrArg WriteOutcome.action hfirst
    | ok text =>
      obtain rfl := hownA text hresult
      rw [hresult] at hwrite
      cases hwrite
      exact List.forall_mem_cons.2 ⟨hresult, ih hgoesRest hownRest hwrittenRest hothers⟩

/-- **When artifacts that are written twice are all merged the second time**,
without change and without a further warning: if none of them blocks another
one, and each can be merged into its own text. -/
theorem merges_again_iff (hroom : ∀ a ∈ artifacts, a.HasRoom t)
    (hplaces : artifacts.Pairwise fun a b => a.place ≠ b.place) :
    (∃ ws t' ws', Writes settings t artifacts ws t' ∧ Writes settings t' artifacts ws' t' ∧
        ws'.map (·.outcome) = allMerged artifacts ∧
        ws'.flatMap (·.warnings) = ws.flatMap (·.warnings)) ↔
      (∀ a ∈ artifacts, ∀ b ∈ artifacts, ¬ a.Blocks b) ∧ ∀ a ∈ artifacts,
      a.mergeInto a.render = .ok a.render := by
  constructor
  · rintro ⟨ws, t', ws', hfirst, hsecond, hmerged, -⟩
    -- as nothing blocks, the first time every artifact was created
    have hapart := hsecond.not_blocks hmerged
    obtain ⟨ws₀, t₀, hwrites, -, hwritten, -⟩ :=
      exists_writes_of_hasRoom hdry hgoes hroom hplaces hapart
    obtain ⟨rfl, rfl⟩ := hfirst.unique hwrites
    exact ⟨hapart, hsecond.mergeInto_render hdry hmerge hgoes hown hwritten hmerged⟩
  · rintro ⟨hapart, hmerges⟩
    obtain ⟨ws, t', hfirst, hwarnings, hwritten, -⟩ :=
      exists_writes_of_hasRoom hdry hgoes hroom hplaces hapart
    obtain ⟨ws', hsecond, hmerged, hwarnings'⟩ :=
      exists_writes_of_isWritten hdry hmerge hgoes hown hwritten hmerges
    exact ⟨ws, t', ws', hfirst, hsecond, hmerged, hwarnings'.trans hwarnings.symm⟩

end

end

end Writing

end TableMapper
