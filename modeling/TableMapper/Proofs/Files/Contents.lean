import TableMapper.Proofs.Files.Directories

/-!
# What files hold

Directories aside, a file tree is what its files hold. Making directories
leaves this as it is (`keepsFiles_withDirectories`), and **writing sets the
one file it names and leaves all others as they are** (`setsFile_write`). What
both do to the directories is said apart (`makesOnly_of_writesFile`).

What a path leads to is said once (`find_eq_ok_iff`): the entry at its place,
if no file is on the way there and the path is one that the entry can have.
-/

namespace TableMapper.FileTree

variable {t t' t'' : FileTree} {location place : Location} {path text : String}
  {content : Content} {e : Entry}

/-- What the file at a place holds, if there is a file. -/
def contentAt? (t : FileTree) (place : Location) : Option Content :=
  match t.at? place with
  | some (.file content) => some content
  | _ => none

/-- **Every file holds what it held**, and no file is new. -/
def KeepsFiles (t t' : FileTree) : Prop :=
  ∀ place, t'.contentAt? place = t.contentAt? place

/-- **One file is set**: under its path it is read as a text, and every other
file holds what it held. -/
structure SetsFile (t t' : FileTree) (path text : String) : Prop where
  read : t'.readText path = .ok text
  contents : ∀ place, t'.contentAt? place =
    if place = Path.location path then some (.text text) else t.contentAt? place

/-- **Directories stay**, and new ones are on the way to a place. -/
structure MakesOnly (t t' : FileTree) (location : Location) : Prop where
  kept : ∀ place, t.at? place = some .directory → t'.at? place = some .directory
  made : ∀ place, t'.at? place = some .directory → t.at? place = some .directory ∨
    place <+: location

theorem contentAt?_eq_some_iff :
    t.contentAt? place = some content ↔ t.at? place = some (.file content) := by
  rw [contentAt?]
  split
  next found heq => simp [heq]
  next hne => simpa using fun heq => hne content heq

/-- No file is in the empty tree. -/
theorem contentAt?_empty (place : Location) : ({} : FileTree).contentAt? place = none := by
  unfold contentAt? at?
  cases place <;> rfl

theorem isFileAt_eq_isSome (t : FileTree) (place : Location) :
    t.isFileAt place = (t.contentAt? place).isSome := by
  rw [Bool.eq_iff_iff, isFileAt_eq_true_iff, Option.isSome_iff_exists]
  simp only [contentAt?_eq_some_iff]

/-! ## What a path leads to -/

/-- **When a path leads to something, and to what.** -/
theorem find_eq_ok_iff :
    t.find path = .ok e ↔ path ≠ "" ∧ t.isBlocked (Path.location path) = false ∧
    t.at? (Path.location path) = some e ∧ (Path.namesDirectory path = true → e = .directory) := by
  rw [find]
  by_cases hempty : path = ""
  · simp [hempty]
  · rw [if_neg (by simpa using hempty)]
    cases t.isBlocked (Path.location path) with
    | true => simp
    | false =>
      rw [if_neg (by decide)]
      cases t.at? (Path.location path) with
      | none => simp
      | some found =>
        cases found with
        | directory =>
          simp only [Except.ok.injEq, Option.some.injEq]
          exact ⟨fun h => ⟨hempty, trivial, h, fun _ => h.symm⟩, fun h => h.2.2.1⟩
        | file content =>
          -- the path of a file must not be one that only a directory can have
          cases Path.namesDirectory path with
          | true =>
            simp only [if_true, Option.some.injEq, reduceCtorEq, false_iff]
            rintro ⟨-, -, rfl, h⟩
            cases h trivial
          | false => simp [hempty]

theorem exists_eq_true_iff : t.exists path = true ↔ ∃ e, t.find path = .ok e := by
  rw [FileTree.exists]
  split
  next e heq => exact ⟨fun _ => ⟨e, heq⟩, fun _ => rfl⟩
  next fault heq => simp [heq]

theorem readText_eq_ok_iff :
    t.readText path = .ok text ↔ t.find path = .ok (.file (.text text)) := by
  rw [readText]
  cases t.find path with
  | error fault => simp
  | ok found =>
    cases found with
    | directory => simp
    | file content => cases content <;> simp

/-! ## Files that are kept -/

theorem KeepsFiles.isBlocked (h : t.KeepsFiles t') (location : Location) :
    t'.isBlocked location = t.isBlocked location := by
  rw [FileTree.isBlocked, FileTree.isBlocked]
  congr 1
  funext place
  rw [isFileAt_eq_isSome, isFileAt_eq_isSome, h place]

/-- **A path leads to the same files as before.** -/
theorem KeepsFiles.find_file (h : t.KeepsFiles t') :
    t'.find path = .ok (.file content) ↔ t.find path = .ok (.file content) := by
  rw [find_eq_ok_iff, find_eq_ok_iff, h.isBlocked, ← contentAt?_eq_some_iff,
    ← contentAt?_eq_some_iff, h]

theorem KeepsFiles.readText (h : t.KeepsFiles t') :
    t'.readText path = .ok text ↔ t.readText path = .ok text := by
  rw [readText_eq_ok_iff, readText_eq_ok_iff, h.find_file]

/-- What is set after files have been kept is set. -/
theorem KeepsFiles.setsFile (h : t.KeepsFiles t') (hset : t'.SetsFile t'' path text) :
    t.SetsFile t'' path text where
  read := hset.read
  contents := by
    intro place
    rw [hset.contents, h place]

/-- **Making directories leaves all files as they are.** -/
theorem keepsFiles_withDirectories (t : FileTree) (location : Location) :
    t.KeepsFiles (t.withDirectories location) := by
  intro place
  rw [contentAt?, contentAt?, at?_withDirectories]
  by_cases hmade : place <+: location ∧ t.at? place = none
  · rw [if_pos hmade, hmade.2]
  · rw [if_neg hmade]

/-- What is there stays there when directories are made. -/
theorem exists_withDirectories (h : t.exists path = true) (location : Location) :
    (t.withDirectories location).exists path = true := by
  obtain ⟨e, he⟩ := exists_eq_true_iff.1 h
  obtain ⟨hne, hblocked, hat, hdirectory⟩ := find_eq_ok_iff.1 he
  refine exists_eq_true_iff.2 ⟨e, find_eq_ok_iff.2 ⟨hne, ?_, ?_, hdirectory⟩⟩
  · rwa [(keepsFiles_withDirectories t location).isBlocked]
  · rw [at?_withDirectories, if_neg (by simp [hat]), hat]

/-- Whether something is at a place that is not on the way is as before. -/
theorem exists_withDirectories_of_not_prefix (h : ¬ Path.location path <+: location) :
    (t.withDirectories location).exists path = t.exists path := by
  rw [Bool.eq_iff_iff, exists_eq_true_iff, exists_eq_true_iff]
  simp only [find_eq_ok_iff, (keepsFiles_withDirectories t location).isBlocked, at?_withDirectories,
    if_neg fun hmade : Path.location path <+: location ∧ t.at? (Path.location path) = none =>
      h hmade.1]

/-! ## Files that are written -/

/-- A file is written where a file is, or nothing. -/
theorem exists_file_of_write (h : t.write path content = .ok t') (hexists : t.exists path = true) :
    ∃ old, t.find path = .ok (.file old) := by
  obtain ⟨-, -, -, hplace, -, -⟩ := write_eq_ok_iff.1 h
  obtain ⟨e, he⟩ := exists_eq_true_iff.1 hexists
  cases e with
  | file old => exact ⟨old, he⟩
  | directory => exact absurd (find_eq_ok_iff.1 he).2.2.1 hplace

/-- Where a file is written, nothing is only where the path leads to nothing. -/
theorem at?_of_write (h : t.write path content = .ok t') (hexists : t.exists path = false) :
    t.at? (Path.location path) = none := by
  obtain ⟨hne, hblocked, hnames, -, -, -⟩ := write_eq_ok_iff.1 h
  cases hat : t.at? (Path.location path) with
  | none => rfl
  | some e =>
    have hfind := exists_eq_true_iff.2 ⟨e, find_eq_ok_iff.2 ⟨hne, hblocked, hat, by simp [hnames]⟩⟩
    rw [hexists] at hfind
    exact Bool.noConfusion hfind

/-- What a file already holds need not be written. -/
theorem setsFile_of_readText (h : t.readText path = .ok text) : t.SetsFile t path text where
  read := h
  contents := by
    intro place
    split
    next hown =>
      rw [hown, contentAt?_eq_some_iff, (find_eq_ok_iff.1 (readText_eq_ok_iff.1 h)).2.2.1]
    · rfl

/-- **Writing sets the file it names, and no other one.** -/
theorem setsFile_write (h : t.writeText path text = .ok t') : t.SetsFile t' path text := by
  obtain ⟨hne, hblocked, hnames, hplace, -, rfl⟩ := write_eq_ok_iff.1 h
  have hat : ∀ other, (t.set (Path.location path) (.file (.text text))).at? other =
      if other = Path.location path then some (.file (.text text)) else t.at? other :=
    fun other => at?_set t _ (ne_nil_of_at? hplace)
  constructor
  case read =>
    rw [readText_eq_ok_iff, find_eq_ok_iff]
    refine ⟨hne, ?_, by rw [hat, if_pos rfl], by simp [hnames]⟩
    rw [isBlocked_eq_false_iff] at hblocked ⊢
    intro place hway hown
    rw [isFileAt, hat, if_neg hown]
    exact hblocked place hway hown
  case contents =>
    intro place
    rw [contentAt?, contentAt?, hat]
    by_cases hown : place = Path.location path
    · rw [if_pos hown, if_pos hown]
    · rw [if_neg hown, if_neg hown]

/-- A file that is written is no directory, nor was one in its place. -/
theorem WritesFile.directory_iff (h : t.WritesFile t') (place : Location) :
    t'.at? place = some .directory ↔ t.at? place = some .directory := by
  rcases h with rfl | ⟨path, content, h⟩
  · exact Iff.rfl
  · obtain ⟨-, -, -, hplace, -, rfl⟩ := write_eq_ok_iff.1 h
    rw [at?_set t _ (ne_nil_of_at? hplace)]
    split
    next hown => exact ⟨fun heq => (nomatch heq), fun heq => absurd (hown ▸ heq) hplace⟩
    next hother => exact Iff.rfl

/-- **A directory is made and a file is written.** -/
theorem makesOnly_of_writesFile (h : (t.withDirectories location).WritesFile t') :
    t.MakesOnly t' location where
  kept := by
    intro place hat
    exact (h.directory_iff place).2 ((grows_withDirectories t location).directory place hat)
  made := by
    intro place hat
    have hmade := (h.directory_iff place).1 hat
    rw [at?_withDirectories] at hmade
    split at hmade
    next hway => exact .inr hway.1
    next => exact .inl hmade

end TableMapper.FileTree
