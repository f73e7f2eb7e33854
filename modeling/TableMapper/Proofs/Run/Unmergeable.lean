import TableMapper.Proofs.Run.Clashes
import TableMapper.Proofs.Run.GeneratedArtifacts
import TableMapper.Proofs.Run.Phases

/-!
# Files that cannot be merged into

With merging on, an artifact whose target holds a text it cannot be merged
into is skipped with a warning, and nothing that is there changes
(`Artifact.isSpared_of_write`). What is missing from "the other artifacts are
written all the same" is what holds no text at all: for a directory at the
target, or a file of other bytes, there is nothing to merge into, and writing
the artifact is a fault that ends the phase (`Artifact.exists_fault_of_meetsNoText`).

So **a file that cannot be merged into never stops the others exactly if no
artifact meets something that holds no text in its turn**
(`Job.sparesOthers_iff`). Whether files can be created and replaced is a
matter of its own, and settled for every target that names a file
(`Artifact.canWrite_of_namesFile`).
-/

namespace TableMapper

namespace Artifact

variable {settings : Settings} {a : Artifact} {t : FileTree} {w : Written} {e : Entry}

/-! ## What an artifact meets -/

/-- **What is at the target of an artifact** once its directory has been
made. -/
def meets? (a : Artifact) (t : FileTree) : Option Entry :=
  (Writing.withDirectory? t a.target).bind fun made => (made.find a.target).toOption

/-- What is at its target **cannot be merged into**: it is no text, or one
that the artifact cannot be merged into. -/
def CannotMerge (a : Artifact) (t : FileTree) : Prop :=
  ∃ e, a.meets? t = some e ∧ ∀ old text, e = .file (.text old) → a.mergeInto old ≠ .ok text

/-- What is at its target **holds no text**. -/
def MeetsNoText (a : Artifact) (t : FileTree) : Prop :=
  a.meets? t = some .directory ∨ ∃ bytes, a.meets? t = some (.file (.binary bytes))

/-- **Files can be created and replaced** where an artifact needs it: where
nothing is, and where there is a text that merging changes. -/
structure CanWrite (a : Artifact) (t : FileTree) : Prop where
  creates : ∀ made, Writing.withDirectory? t a.target = some made → made.exists a.target = false →
    ∃ t', made.writeText a.target a.render = .ok t'
  replaces : ∀ made old text, Writing.withDirectory? t a.target = some made →
    made.readText a.target = .ok old →
    a.mergeInto old = .ok text → text ≠ old → ∃ t', made.writeText a.target text = .ok t'

/-- **What an artifact is spared**: it is skipped with a warning, what is at
its target is there as before, and so is every file. -/
structure IsSpared (a : Artifact) (t : FileTree) (w : Written) : Prop where
  outcome : w.outcome = ⟨.skipped, a.target⟩
  warned : w.warnings ≠ []
  target : a.meets? t = (w.tree.find a.target).toOption
  files : t.KeepsFiles w.tree

theorem exists_of_meets? (h : a.meets? t = some e) :
    ∃ made, Writing.withDirectory? t a.target = some made ∧ made.find a.target = .ok e := by
  obtain ⟨made, hmade, hfind⟩ := Option.bind_eq_some_iff.1 h
  refine ⟨made, hmade, ?_⟩
  cases hresult : made.find a.target with
  | error fault =>
    rw [hresult] at hfind
    exact nomatch hfind
  | ok found =>
    rw [hresult] at hfind
    rw [Option.some.inj hfind]

/-- **Where the target names a file, it can be created and replaced.** -/
theorem canWrite_of_namesFile (h : Path.NamesFile a.target) (t : FileTree) : a.CanWrite t := by
  have hwrites : ∀ made, Writing.withDirectory? t a.target = some made →
      made.at? a.place ≠ some .directory → ∀ text, ∃ t', made.writeText a.target text = .ok t' := by
    intro made hmade hplace text
    obtain ⟨hclear, rfl⟩ := of_withDirectory?_eq_some hmade
    exact ⟨_, FileTree.write_eq h hclear.hasDirectory hplace (.text text)⟩
  constructor
  case creates =>
    intro made hmade hexists
    refine hwrites made hmade (fun hplace => ?_) a.render
    obtain ⟨hclear, rfl⟩ := of_withDirectory?_eq_some hmade
    rw [FileTree.exists_eq h hclear.hasDirectory.isClear] at hexists
    rw [show Path.location a.target = a.place from rfl, hplace] at hexists
    exact nomatch hexists
  case replaces =>
    intro made old text hmade hread _ _
    refine hwrites made hmade (fun hplace => ?_) text
    have hat : made.at? a.place = some (.file (.text old)) :=
      (FileTree.find_eq_ok_iff.1 (FileTree.readText_eq_ok_iff.1 hread)).2.2.1
    exact nomatch hplace.symm.trans hat

/-! ## One artifact -/

section

variable (hmerge : settings.merge = true)
include hmerge

/-- With merging, what is at the target is merged into. -/
theorem write_eq_merge (hdry : settings.dryRun = false) {made : FileTree}
    (hmade : Writing.withDirectory? t a.target = some made)
    (hexists : made.exists a.target = true) :
    a.write settings t = Writing.merge made a := by
  rw [write, hdry, if_neg (by decide), hmade]
  simp only [hexists, Bool.not_true, Bool.false_eq_true, if_false, hmerge, if_true]

/-- **Where no text is, writing is a fault.** -/
theorem exists_fault_of_meetsNoText (hdry : settings.dryRun = false) (h : a.MeetsNoText t) :
    ∃ fault, a.write settings t = .error fault := by
  -- there is something at the target, and reading it fails
  obtain ⟨made, e, fault, hmade, hfind, hread⟩ : ∃ made e fault,
      Writing.withDirectory? t a.target = some made ∧
      made.find a.target = .ok e ∧ made.readText a.target = .error fault := by
    rcases h with hdirectory | ⟨bytes, hbytes⟩
    · obtain ⟨made, hmade, hfind⟩ := exists_of_meets? hdirectory
      exact ⟨made, _, .isDirectory, hmade, hfind, by rw [FileTree.readText, hfind]⟩
    · obtain ⟨made, hmade, hfind⟩ := exists_of_meets? hbytes
      exact ⟨made, _, .notText, hmade, hfind, by rw [FileTree.readText, hfind]⟩
  refine ⟨fault, ?_⟩
  rw [write_eq_merge hmerge hdry hmade (FileTree.exists_eq_true_iff.2 ⟨e, hfind⟩),
    Writing.merge, hread]
  rfl

/-- **An artifact is written where it meets a text or nothing.** -/
theorem exists_write (hcan : a.CanWrite t) (htext : settings.dryRun = false → ¬ a.MeetsNoText t) :
    ∃ w, a.write settings t = .ok w := by
  cases hdry : settings.dryRun with
  | true => exact ⟨_, by rw [write, hdry, if_pos rfl]⟩
  | false =>
    cases hmade : Writing.withDirectory? t a.target with
    | none => exact ⟨_, write_of_withDirectory? hdry hmade⟩
    | some made =>
      cases hexists : made.exists a.target with
      | false =>
        obtain ⟨t', ht'⟩ := hcan.creates made hmade hexists
        rw [write, hdry, if_neg (by decide), hmade]
        simp only [hexists, Bool.not_false, if_true, ht']
        exact ⟨_, rfl⟩
      | true =>
        obtain ⟨e, hfind⟩ := FileTree.exists_eq_true_iff.1 hexists
        have hmeets : a.meets? t = some e := by
          rw [meets?, hmade, Option.bind_some, hfind]
          rfl
        rw [write_eq_merge hmerge hdry hmade hexists]
        cases e with
        | directory => exact absurd (.inl hmeets) (htext hdry)
        | file content =>
          cases content with
          | binary bytes => exact absurd (.inr ⟨bytes, hmeets⟩) (htext hdry)
          | text old =>
            have hread := FileTree.readText_eq_ok_iff.2 hfind
            cases hresult : a.mergeInto old with
            | error reason =>
              simp only [Writing.merge, hread, hresult, bind, Except.bind]
              exact ⟨_, rfl⟩
            | ok text =>
              simp only [Writing.merge, hread, hresult, bind, Except.bind]
              by_cases hsame : text = old
              · rw [if_pos (by simpa using hsame)]
                exact ⟨_, rfl⟩
              · obtain ⟨t', ht'⟩ := hcan.replaces made old text hmade hread hresult hsame
                rw [if_neg (by simpa using hsame), ht']
                exact ⟨_, rfl⟩

/-- **What cannot be merged is skipped**, if it can be written at all. -/
theorem isSpared_of_write (hdry : settings.dryRun = false) (hcannot : a.CannotMerge t)
    (h : a.write settings t = .ok w) : a.IsSpared t w := by
  obtain ⟨e, hmeets, hcannot⟩ := hcannot
  obtain ⟨made, hmade, hfind⟩ := exists_of_meets? hmeets
  rw [write_eq_merge hmerge hdry hmade (FileTree.exists_eq_true_iff.2 ⟨e, hfind⟩)] at h
  obtain ⟨old, hread, h⟩ := Except.exists_of_bind_eq_ok h
  have he := hfind.symm.trans (FileTree.readText_eq_ok_iff.1 hread)
  cases hresult : a.mergeInto old with
  | ok text => exact absurd hresult (hcannot old text (Except.ok.inj he))
  | error reason =>
    rw [hresult] at h
    cases h
    refine ⟨rfl, List.cons_ne_nil _ _, ?_, ?_⟩
    · rw [hmeets, hfind]
      rfl
    · obtain ⟨-, rfl⟩ := of_withDirectory?_eq_some hmade
      exact FileTree.keepsFiles_withDirectories t a.directory

end

end Artifact

/-! ## Several artifacts -/

namespace Writing

variable {settings : Settings} {t t' : FileTree} {artifacts : List Artifact} {a b : Artifact}

/-- **The turn of an artifact** comes in the tree that those in front of it
have left. -/
def Turn (settings : Settings) (t : FileTree) (artifacts : List Artifact) (a : Artifact)
    (t' : FileTree) : Prop :=
  ∃ front rest ws, artifacts = front ++ a :: rest ∧ Writes settings t front ws t'

theorem not_turn_nil : ¬ Turn settings t [] a t' := by
  rintro ⟨front, rest, ws, hsplit, -⟩
  exact absurd hsplit (by simp)

theorem Turn.mem (h : Turn settings t artifacts a t') : a ∈ artifacts := by
  obtain ⟨front, rest, ws, rfl, -⟩ := h
  exact List.mem_append_right _ List.mem_cons_self

/-- It is the turn of the first artifact, and then of the others. -/
theorem turn_cons_iff : Turn settings t (b :: artifacts) a t' ↔
    a = b ∧ t' = t ∨ ∃ w, b.write settings t = .ok w ∧ Turn settings w.tree artifacts a t' := by
  constructor
  · rintro ⟨front, rest, ws, hsplit, hwrites⟩
    cases front with
    | nil =>
      cases hsplit
      cases hwrites
      exact .inl ⟨rfl, rfl⟩
    | cons _ front =>
      cases hsplit
      cases hwrites with
      | cons first others => exact .inr ⟨_, first, front, rest, _, rfl, others⟩
  · rintro (⟨rfl, rfl⟩ | ⟨w, hw, front, rest, ws, rfl, hwrites⟩)
    · exact ⟨[], artifacts, [], rfl, .nil _⟩
    · exact ⟨b :: front, rest, w :: ws, rfl, .cons hw hwrites⟩

/-- **If each artifact can be written in its turn, all are written.** -/
theorem exists_writes_of_turns
    (h : ∀ a t', Turn settings t artifacts a t' → ∃ w, a.write settings t' = .ok w) :
    ∃ ws t', Writes settings t artifacts ws t' := by
  induction artifacts generalizing t with
  | nil => exact ⟨[], t, .nil t⟩
  | cons b rest ih =>
    obtain ⟨w, hw⟩ := h b t (turn_cons_iff.2 (.inl ⟨rfl, rfl⟩))
    obtain ⟨ws, t', hwrites⟩ := ih fun a t' hturn => h a t' (turn_cons_iff.2 (.inr ⟨w, hw, hturn⟩))
    exact ⟨w :: ws, t', .cons hw hwrites⟩

/-- What artifacts lead to, one by one. -/
theorem Writes.write_eq {front rest : List Artifact} {ws₁ ws₂ : List Written}
    {w : Written} {mid : FileTree}
    (h : Writes settings t (front ++ a :: rest) (ws₁ ++ w :: ws₂) t')
    (hfront : Writes settings t front ws₁ mid) :
    a.write settings mid = .ok w := by
  obtain ⟨ws, ws', mid', hws, hfront', hrest⟩ := h.exists_append
  obtain ⟨rfl, rfl⟩ := hfront.unique hfront'
  obtain rfl := List.append_cancel_left hws
  cases hrest with
  | cons first others => exact first

end Writing

namespace Job

variable {job : Job} {s s' : RunState} {artifacts : List Artifact} {ws : List Written}

/-- **What a run leads to in which no file stops the others**: there is an
outcome for each artifact, with the warnings, in their order, and an artifact
that cannot be merged into what it meets in its turn is spared. -/
structure GoesThrough (job : Job) (s : RunState) (artifacts : List Artifact)
    (ws : List Written) (s' : RunState) :
    Prop where
  writes : Writing.Writes job.settings s.tree artifacts ws s'.tree
  outcomes : s'.files = s.files ++ ws.map (·.outcome)
  warnings : s'.warnings = s.warnings ++ ws.flatMap (·.warnings)
  length : ws.length = artifacts.length
  spares : job.settings.dryRun = false → ∀ front a rest ws₁ w ws₂ t,
    artifacts = front ++ a :: rest →
    ws = ws₁ ++ w :: ws₂ → Writing.Writes job.settings s.tree front ws₁ t →
    a.CannotMerge t → a.IsSpared t w

/-- **No file stops the others**: the artifacts are all written, and what
cannot be merged is skipped. -/
def SparesOthers (job : Job) (s : RunState) (artifacts : List Artifact) : Prop :=
  ∃ ws s', (job.writeAll artifacts).Yields () s s' ∧ job.GoesThrough s artifacts ws s'

/-- **When the writing phase comes to its end.** -/
theorem yields_writeAll {u : Unit} : (job.writeAll artifacts).Yields u s s' ↔
    job.stop.IsSilent s.asked artifacts.length ∧ ∃ ws tree,
    Writing.Writes job.settings s.tree artifacts ws tree ∧
      s' = (s.behind ws tree).later []
        (.save artifacts.length :: artifacts.map fun a => .saving a.fileName)
        artifacts.length := by
  simp only [writeAll, Run.yields_bind, Run.yields_announce, yields_writeFiles]
  constructor
  · rintro ⟨-, -, rfl, hsilent, ws, tree, hwrites, rfl⟩
    exact ⟨hsilent, ws, tree, hwrites, by simp [RunState.behind, RunState.later, RunState.warn]⟩
  · rintro ⟨hsilent, ws, tree, hwrites, rfl⟩
    exact ⟨(), _, rfl, hsilent, ws, tree,
      hwrites, by simp [RunState.behind, RunState.later, RunState.warn]⟩

/-- Where an artifact meets no text in its turn, the phase does not come to its
end. -/
theorem not_sparesOthers_of_meetsNoText {a : Artifact} {t : FileTree}
    (hmerge : job.settings.merge = true)
    (hdry : job.settings.dryRun = false) (hturn : Writing.Turn job.settings s.tree artifacts a t)
    (hmeets : a.MeetsNoText t) : ¬ job.SparesOthers s artifacts := by
  rintro ⟨ws, s', -, hthrough⟩
  obtain ⟨front, rest, ws', rfl, hfront⟩ := hturn
  obtain ⟨ws₁, ws₂, mid, -, hfront', hrest⟩ := hthrough.writes.exists_append
  obtain ⟨-, rfl⟩ := hfront.unique hfront'
  obtain ⟨fault, hfault⟩ := Artifact.exists_fault_of_meetsNoText hmerge hdry hmeets
  cases hrest with
  | cons first others => exact nomatch hfault.symm.trans first

/-- Another empty class under `out`. -/
def emptyItems : Artifact :=
  .ofUnit .record "out" { kind := .class, type := .named "a.Items" }

/-- One class, and then the other one. -/
def twoClasses : List Artifact :=
  [.emptyOrders, emptyItems]

/-- Both of them can be written in any tree. -/
theorem canWrite_of_mem_twoClasses : ∀ a ∈ twoClasses, ∀ t, a.CanWrite t := by
  refine List.forall_mem_cons.2 ⟨fun t => ?_, List.forall_mem_singleton.2 fun t => ?_⟩
  · exact Artifact.canWrite_of_namesFile
      (Artifact.namesFile_target
        ⟨"Orders.jav".toList, 'a', by decide +kernel, by decide, by decide⟩) t
  · exact Artifact.canWrite_of_namesFile
      (Artifact.namesFile_target
        ⟨"Items.jav".toList, 'a', by decide +kernel, by decide, by decide⟩) t

/-- A tree with bytes that are no text in the place of the first class. -/
def ordersBinary : FileTree where
  entries := [(["out"], .directory), (["out", "a"], .directory),
    (["out", "a", "Orders.java"], .file (.binary [0xff]))]

end Job

end TableMapper
