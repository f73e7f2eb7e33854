import TableMapper.Proofs.Files.Location

/-!
# Directories on the way

Making a directory makes all directories on the way that are missing, and
changes nothing else (`at?_withDirectories`); it fails exactly if a file is
in the way. Writing changes the one place it names. So **whatever is written,
files stay files and directories stay directories** (`FileTree.Grows`).
-/

namespace TableMapper

/-- The places on the way to a place are those it leads on from. -/
theorem Location.mem_above {place location : Location} :
    place ∈ above location ↔ place <+: location ∧ place ≠ location := by
  rw [above, List.mem_map]
  constructor
  · rintro ⟨n, hn, rfl⟩
    refine ⟨List.take_prefix n location, fun heq => ?_⟩
    have hlength := congrArg List.length heq
    rw [List.length_take] at hlength
    have := List.mem_range.1 hn
    omega
  · rintro ⟨hbefore, hne⟩
    refine ⟨place.length, List.mem_range.2
      (Nat.lt_of_le_of_ne hbefore.length_le fun heq => hne (hbefore.eq_of_length heq)), ?_⟩
    exact (List.prefix_iff_eq_take.1 hbefore).symm

namespace FileTree

variable {t t' : FileTree} {location other : Location} {path : String} {content : Content}

/-! ## Making directories -/

/-- **A directory can be made**: no file is at the place or on the way. -/
def IsClear (t : FileTree) (location : Location) : Prop :=
  ∀ place, place <+: location → t.isFileAt place = false

/-- The directory at a place is there, with all those on the way. -/
def HasDirectory (t : FileTree) (location : Location) : Prop :=
  ∀ place, place <+: location → t.at? place = some .directory

/-- The tree with the directory at a place. -/
def withDirectories (t : FileTree) (location : Location) : FileTree :=
  (location.above ++ [location]).foldl ensureDirectory t

theorem isFileAt_eq_true_iff :
    t.isFileAt location = true ↔ ∃ content, t.at? location = some (.file content) := by
  rw [isFileAt]
  split
  next content heq => exact ⟨fun _ => ⟨content, heq⟩, fun _ => rfl⟩
  next hne => exact ⟨fun h => Bool.noConfusion h, fun ⟨content, heq⟩ => absurd heq (hne content)⟩

theorem isFileAt_of_directory (h : t.at? location = some .directory) :
    t.isFileAt location = false := by
  rw [isFileAt, h]

theorem HasDirectory.isClear (h : t.HasDirectory location) : t.IsClear location :=
  fun place hplace => isFileAt_of_directory (h place hplace)

/-- The start is a directory in every tree. -/
theorem ne_nil_of_at? (h : t.at? location ≠ some .directory) : location ≠ [] := by
  rintro rfl
  exact h rfl

theorem at?_ensureDirectory (t : FileTree) (location other : Location) :
    (t.ensureDirectory location).at? other =
    if other = location ∧ t.at? other = none then some .directory else t.at? other := by
  rw [ensureDirectory]
  cases hat : t.at? location with
  | some e =>
    rw [if_pos Option.isSome_some, if_neg]
    rintro ⟨rfl, hnone⟩
    rw [hat] at hnone
    exact Option.noConfusion rfl (heq_of_eq hnone)
  | none =>
    rw [if_neg (by decide), at?_set t _ (ne_nil_of_at? (t := t) (by simp [hat]))]
    by_cases heq : other = location
    · rw [if_pos heq, if_pos ⟨heq, heq ▸ hat⟩]
    · rw [if_neg heq, if_neg fun h => heq h.1]

theorem at?_foldl_ensureDirectory (places : List Location) (t : FileTree) (other : Location) :
    (places.foldl ensureDirectory t).at? other =
      if other ∈ places ∧ t.at? other = none then some .directory else t.at? other := by
  induction places generalizing t with
  | nil => simp
  | cons place places ih =>
    rw [List.foldl_cons, ih, at?_ensureDirectory]
    by_cases hnone : t.at? other = none
    · by_cases heq : other = place
      · subst heq
        simp [hnone]
      · simp [hnone, heq]
    · simp [hnone]

/-- **Only what is missing on the way is made.** -/
theorem at?_withDirectories (t : FileTree) (location other : Location) :
    (t.withDirectories location).at? other =
    if other <+: location ∧ t.at? other = none then some .directory else t.at? other := by
  have hway : other ∈ location.above ++ [location] ↔ other <+: location := by
    rw [List.mem_append, Location.mem_above, List.mem_singleton]
    refine ⟨fun h => h.elim (·.1) fun heq => heq ▸ List.prefix_rfl, fun h => ?_⟩
    by_cases heq : other = location
    · exact .inr heq
    · exact .inl ⟨h, heq⟩
  rw [withDirectories, at?_foldl_ensureDirectory]
  simp only [hway]

/-- A directory that is there is not made again. -/
theorem HasDirectory.withDirectories_eq (h : t.HasDirectory location) :
    t.withDirectories location = t := by
  have hfold : ∀ places : List Location, (∀ place ∈ places, place <+: location) →
      places.foldl ensureDirectory t = t := by
    intro places hplaces
    induction places with
    | nil => rfl
    | cons place places ih =>
      obtain ⟨hplace, hrest⟩ := List.forall_mem_cons.1 hplaces
      rw [List.foldl_cons, ensureDirectory, h place hplace, if_pos Option.isSome_some]
      exact ih hrest
  refine hfold _ fun place hplace => ?_
  rcases List.mem_append.1 hplace with hplace | hplace
  · exact (Location.mem_above.1 hplace).1
  · exact List.mem_singleton.1 hplace ▸ List.prefix_rfl

theorem IsClear.hasDirectory (h : t.IsClear location) :
    (t.withDirectories location).HasDirectory location := by
  intro place hplace
  rw [at?_withDirectories]
  by_cases hnone : t.at? place = none
  · rw [if_pos ⟨hplace, hnone⟩]
  · rw [if_neg fun hmade => hnone hmade.2]
    cases hat : t.at? place with
    | none => exact absurd hat hnone
    | some e =>
      cases e with
      | directory => rfl
      | file content =>
        exact absurd (isFileAt_eq_true_iff.2 ⟨content, hat⟩) (by simp [h place hplace])

theorem isBlocked_eq_false_iff : t.isBlocked location = false ↔
    ∀ place, place <+: location → place ≠ location → t.isFileAt place = false := by
  rw [isBlocked, List.any_eq_false]
  constructor
  · exact fun h place hplace hne => by simpa using h place (Location.mem_above.2 ⟨hplace, hne⟩)
  · intro h place hplace
    obtain ⟨hbefore, hne⟩ := Location.mem_above.1 hplace
    simp [h place hbefore hne]

theorem isClear_iff :
    t.IsClear location ↔ t.isBlocked location = false ∧ t.isFileAt location = false := by
  rw [isBlocked_eq_false_iff]
  constructor
  · exact fun h => ⟨fun place hplace _ => h place hplace, h location List.prefix_rfl⟩
  · rintro ⟨habove, hown⟩ place hplace
    by_cases heq : place = location
    · exact heq ▸ hown
    · exact habove place hplace heq

/-- **When a directory is made, and what this leads to.** -/
theorem makeDirectories_eq_ok_iff : t.makeDirectories path = .ok t' ↔
    t.IsClear (Path.location path) ∧ t.withDirectories (Path.location path) = t' := by
  rw [isClear_iff, makeDirectories]
  cases t.isBlocked (Path.location path) with
  | true => simp
  | false =>
    cases t.isFileAt (Path.location path) with
    | true => simp
    | false => simp [withDirectories]

/-! ## Reading and writing files -/

/-- On the way to a file are its directory and the places on the way there. -/
theorem isBlocked_eq_false (h : Path.NamesFile path)
    (hclear : t.IsClear (Path.location (Path.parent path))) :
    t.isBlocked (Path.location path) = false := by
  obtain ⟨name, hlocation⟩ := h.location
  rw [isBlocked_eq_false_iff, hlocation]
  intro place hplace hne
  rcases List.prefix_concat_iff.1 hplace with heq | hplace
  · exact absurd heq hne
  · exact hclear place hplace

/-- **What the path of a file leads to**, if no file is in the way. -/
theorem find_eq (h : Path.NamesFile path) (hclear : t.IsClear (Path.location (Path.parent path))) :
    t.find path = match t.at? (Path.location path) with
      | none => .error .notFound
      | some e => .ok e := by
  rw [find, if_neg (by simpa using h.ne_empty), if_neg (by simp [isBlocked_eq_false h hclear])]
  cases t.at? (Path.location path) with
  | none => rfl
  | some e =>
    cases e with
    | directory => rfl
    | file content => simp [h.namesDirectory]

theorem exists_eq (h : Path.NamesFile path)
    (hclear : t.IsClear (Path.location (Path.parent path))) :
    t.exists path = (t.at? (Path.location path)).isSome := by
  rw [FileTree.exists, find_eq h hclear]
  cases t.at? (Path.location path) <;> rfl

/-- A text that is read is that of a file. -/
theorem isFileAt_of_readText {text : String} (h : t.readText path = .ok text) :
    t.isFileAt (Path.location path) = true := by
  rw [isFileAt_eq_true_iff]
  revert h
  rw [readText, find]
  split
  next fault heq => exact fun h => nomatch h
  next heq => exact fun h => nomatch h
  next bytes heq => exact fun h => nomatch h
  next s heq =>
    intro _
    revert heq
    split
    · exact fun h => nomatch h
    · split
      · exact fun h => nomatch h
      · cases t.at? (Path.location path) with
        | none => exact fun h => nomatch h
        | some e =>
          cases e with
          | directory => exact fun h => nomatch h
          | file content => exact fun _ => ⟨content, rfl⟩

/-- **When a file is written, and what this leads to.** -/
theorem write_eq_ok_iff : t.write path content = .ok t' ↔
    path ≠ "" ∧ t.isBlocked (Path.location path) = false ∧ Path.namesDirectory path = false ∧
      t.at? (Path.location path) ≠ some .directory ∧
      t.at? (Path.location path).dropLast = some .directory ∧
      t.set (Path.location path) (.file content) = t' := by
  rw [write]
  by_cases hempty : path = ""
  · simp [hempty]
  · rw [if_neg (by simpa using hempty)]
    cases t.isBlocked (Path.location path) with
    | true => simp
    | false =>
      rw [if_neg (by decide)]
      cases Path.namesDirectory path with
      | true => simp
      | false =>
        rw [if_neg (by decide)]
        cases hat : t.at? (Path.location path) with
        | none =>
          cases hparent : t.at? (Path.location path).dropLast with
          | none => simp
          | some e => cases e <;> simp [hempty]
        | some e =>
          cases e with
          | directory => simp
          | file old =>
            cases hparent : t.at? (Path.location path).dropLast with
            | none => simp
            | some e => cases e <;> simp [hempty]

theorem write_eq (h : Path.NamesFile path)
    (hdirectory : t.HasDirectory (Path.location (Path.parent path)))
    (hplace : t.at? (Path.location path) ≠ some .directory) (content : Content) :
    t.write path content = .ok (t.set (Path.location path) (.file content)) := by
  refine write_eq_ok_iff.2
    ⟨h.ne_empty, isBlocked_eq_false h hdirectory.isClear, h.namesDirectory, hplace, ?_, rfl⟩
  obtain ⟨name, hlocation⟩ := h.location
  rw [hlocation, List.dropLast_concat]
  exact hdirectory _ List.prefix_rfl

/-! ## Trees that grow -/

/-- **Nothing is taken away**: directories stay, and so do files, though
their content may be another one. -/
structure Grows (t t' : FileTree) : Prop where
  directory : ∀ location, t.at? location = some .directory → t'.at? location = some .directory
  file : ∀ location, t.isFileAt location = true → t'.isFileAt location = true

theorem Grows.refl (t : FileTree) : t.Grows t :=
  ⟨fun _ => id, fun _ => id⟩

theorem Grows.trans {t'' : FileTree} (h : t.Grows t') (h' : t'.Grows t'') : t.Grows t'' :=
  ⟨fun location hat => h'.directory location (h.directory location hat),
    fun location hat => h'.file location (h.file location hat)⟩

theorem Grows.hasDirectory (h : t.Grows t') (hthere : t.HasDirectory location) :
    t'.HasDirectory location :=
  fun place hplace => h.directory place (hthere place hplace)

/-- Where a directory can be made later it could be made before. -/
theorem Grows.isClear (h : t.Grows t') (hclear : t'.IsClear location) : t.IsClear location := by
  intro place hplace
  rw [Bool.eq_false_iff]
  intro hfile
  have hfile' := h.file place hfile
  rw [hclear place hplace] at hfile'
  exact Bool.noConfusion hfile'

/-- Where something is there is something later. -/
theorem Grows.isSome_at? (h : t.Grows t') (hthere : (t.at? location).isSome) :
    (t'.at? location).isSome := by
  obtain ⟨e, he⟩ := Option.isSome_iff_exists.1 hthere
  cases e with
  | directory => rw [h.directory location he, Option.isSome_some]
  | file content =>
    obtain ⟨content', hcontent⟩ :=
      isFileAt_eq_true_iff.1 (h.file location (isFileAt_eq_true_iff.2 ⟨content, he⟩))
    rw [hcontent, Option.isSome_some]

theorem grows_withDirectories (t : FileTree) (location : Location) :
    t.Grows (t.withDirectories location) where
  directory := by
    intro other hat
    rw [at?_withDirectories, if_neg (by simp [hat]), hat]
  file := by
    intro other hat
    obtain ⟨content, hat⟩ := isFileAt_eq_true_iff.1 hat
    exact isFileAt_eq_true_iff.2 ⟨content, by rw [at?_withDirectories, if_neg (by simp [hat]), hat]⟩

theorem grows_write (h : t.write path content = .ok t') : t.Grows t' := by
  obtain ⟨-, -, -, hplace, -, rfl⟩ := write_eq_ok_iff.1 h
  refine ⟨fun other hat => ?_, fun other hat => ?_⟩
  · rw [at?_set t _ (ne_nil_of_at? hplace), if_neg, hat]
    rintro rfl
    exact hplace hat
  · rw [isFileAt_eq_true_iff] at hat ⊢
    rw [at?_set t _ (ne_nil_of_at? hplace)]
    split
    · exact ⟨content, rfl⟩
    · exact hat

/-- **At most one file is written.** -/
def WritesFile (t t' : FileTree) : Prop :=
  t' = t ∨ ∃ path content, t.write path content = .ok t'

theorem WritesFile.grows (h : t.WritesFile t') : t.Grows t' := by
  rcases h with rfl | ⟨path, content, h⟩
  · exact .refl _
  · exact grows_write h

end FileTree

end TableMapper
