import TableMapper.Merge.Unit
import TableMapper.Proofs.Text.SortedSet
import TableMapper.Proofs.Unit.ReadUnit

/-!
# What is kept of a heading

Of the heading of an existing file the imports, interfaces and annotations
are kept that the fresh one lacks. Interfaces and annotations are added
behind the others unless their key is there (`addNew`), so **what has been
added once is not added again** (`exists_foldl_addNew`), and neither are
imports, which are a set.

A merge fails if the declaration does not fit. **A file that was written
with the superclass of the fresh one fits exactly if the superclass can be
read back** (`Legible.checkDeclared_iff`).
-/

namespace TableMapper

/-! ## Items that are added once -/

section

variable {α κ : Type} [BEq κ] {key : α → κ} {items added : List α}

/-- An item added behind the others, unless one with its key is there. -/
def addNew (key : α → κ) (items : List α) (item : α) : List α :=
  if items.any fun other => key other == key item then items else items ++ [item]

/-- **What is added to some items** are some of those offered; to offer them
alone comes to the same. -/
theorem exists_foldl_addNew (key : α → κ) (items added : List α) :
    ∃ new, (∀ item ∈ new, item ∈ added) ∧ added.foldl (addNew key) items = items ++ new ∧
      new.foldl (addNew key) items = items ++ new := by
  induction added generalizing items with
  | nil => exact ⟨[], by simp, by simp, by simp⟩
  | cons item added ih =>
    by_cases hthere : (items.any fun other => key other == key item) = true
    · obtain ⟨new, hoffered, hadded, hnew⟩ := ih items
      refine ⟨new, fun other hother => List.mem_cons_of_mem item (hoffered other hother), ?_, hnew⟩
      rw [List.foldl_cons, addNew, if_pos hthere, hadded]
    · obtain ⟨new, hoffered, hadded, hnew⟩ := ih (items ++ [item])
      refine ⟨item :: new, List.forall_mem_cons.2
        ⟨List.mem_cons_self, fun other hother => List.mem_cons_of_mem item (hoffered other hother)⟩,
        ?_, ?_⟩
      · rw [List.foldl_cons, addNew, if_neg hthere, hadded, List.append_assoc]
        rfl
      · rw [List.foldl_cons, addNew, if_neg hthere, hnew, List.append_assoc]
        rfl

/-- Nothing is added of which the keys are there. -/
theorem foldl_addNew_of_forall [LawfulBEq κ]
    (h : ∀ item ∈ added, ∃ other ∈ items, key other = key item) :
    added.foldl (addNew key) items = items := by
  induction added with
  | nil => rfl
  | cons item added ih =>
    obtain ⟨other, hother, hkey⟩ := h item List.mem_cons_self
    have hthere : (items.any fun other => key other == key item) = true :=
      List.any_eq_true.2 ⟨other, hother, beq_iff_eq.2 hkey⟩
    rw [List.foldl_cons, addNew, if_pos hthere]
    exact ih fun item hitem => h item (List.mem_cons_of_mem _ hitem)

/-- In the end the key of every item offered is there. -/
theorem exists_mem_foldl_addNew [LawfulBEq κ] (key : α → κ) (items : List α)
    {item : α} (h : item ∈ added) :
    ∃ other ∈ added.foldl (addNew key) items, key other = key item := by
  induction added generalizing items with
  | nil => exact absurd h List.not_mem_nil
  | cons first added ih =>
    rw [List.foldl_cons]
    rcases List.mem_cons.1 h with rfl | h
    · obtain ⟨new, -, hadded, -⟩ := exists_foldl_addNew key (addNew key items item) added
      rw [hadded, addNew]
      split
      next hthere =>
        obtain ⟨other, hother, hkey⟩ := List.any_eq_true.1 hthere
        exact ⟨other, List.mem_append_left _ hother, beq_iff_eq.1 hkey⟩
      · exact ⟨item, by simp, rfl⟩
    · exact ih _ h

/-- **To offer the outcome again adds nothing**, possibly in a form that has
the same keys. -/
theorem foldl_addNew_again [LawfulBEq κ] {form : α → α}
    (hitems : ∀ item ∈ items, key (form item) = key item)
    (hadded : ∀ item ∈ added, form item = item) :
    ((added.foldl (addNew key) items).map form).foldl (addNew key) items
      = added.foldl (addNew key) items := by
  obtain ⟨new, hoffered, hall, hnew⟩ := exists_foldl_addNew key items added
  have hform : new.map form = new := by
    rw [List.map_congr_left fun item hitem => hadded item (hoffered item hitem)]
    exact List.map_id' new
  have hold : (items.map form).foldl (addNew key) items = items := by
    refine foldl_addNew_of_forall fun item hitem => ?_
    obtain ⟨other, hother, rfl⟩ := List.mem_map.1 hitem
    exact ⟨other, hother, (hitems other hother).symm⟩
  rw [hall, List.map_append, hform, List.foldl_append, hold, hnew]

end

/-- **What is read from a heading can be written again**: names and imports
are written in ASCII, and annotations are names with arguments. -/
structure Declared.Legible (old : Declared) : Prop where
  superInterfaces : ∀ name ∈ old.superInterfaces, IsWritten (JavaType.named name).shortName.toList
  imports : ∀ name ∈ old.imports, Source.IsImport name.toList
  annotations : ∀ text ∈ old.annotations, Source.IsAnnotation text

namespace JavaUnit

open Source

section

variable {u v : JavaUnit} {old : Declared} {name : String} {names : List String}

/-! ## The heading of a merged unit -/

/-- What two interfaces have in common that are taken for the same one. -/
def interfaceKey (t : JavaType) : String :=
  baseName t.shortName

theorem keepSuperInterface_eq (h : IsWritten name.toList) :
    u.keepSuperInterface name = { u with
      superInterfaces := addNew interfaceKey u.superInterfaces (.named name) } := by
  rw [keepSuperInterface, addNew]
  simp only [interfaceKey, JavaType.shortName_named h]
  split <;> rfl

theorem foldl_keepSuperInterface (h : ∀ name ∈ names, IsWritten name.toList) (u : JavaUnit) :
    names.foldl keepSuperInterface u = { u with
      superInterfaces := (names.map .named).foldl (addNew interfaceKey) u.superInterfaces } := by
  induction names generalizing u with
  | nil => rfl
  | cons name names ih =>
    rw [List.foldl_cons, keepSuperInterface_eq (h name List.mem_cons_self),
      ih fun other hother => h other (List.mem_cons_of_mem name hother)]
    rfl

/-- Interfaces that are kept are added behind the others. -/
theorem exists_foldl_keepSuperInterface (names : List String) (u : JavaUnit) :
    ∃ added : List JavaType, (∀ t ∈ added, ∃ name ∈ names, t = .named name) ∧
      names.foldl keepSuperInterface u
        = { u with superInterfaces := u.superInterfaces ++ added } := by
  induction names generalizing u with
  | nil => exact ⟨[], by simp, by simp⟩
  | cons name names ih =>
    obtain ⟨added, hadded, hall⟩ := ih (u.keepSuperInterface name)
    have hoffered : ∀ t ∈ added, ∃ other ∈ name :: names, t = .named other := by
      intro t ht
      obtain ⟨other, hother, rfl⟩ := hadded t ht
      exact ⟨other, List.mem_cons_of_mem name hother, rfl⟩
    rw [List.foldl_cons, hall, keepSuperInterface]
    split
    · exact ⟨added, hoffered, rfl⟩
    · refine ⟨.named name :: added,
        List.forall_mem_cons.2 ⟨⟨name, List.mem_cons_self, rfl⟩, hoffered⟩, ?_⟩
      rw [List.append_assoc]
      rfl

theorem annotate_eq (u : JavaUnit) (mark : String) :
    u.annotate mark = { u with annotations := addNew id u.annotations mark } := by
  rw [annotate, addNew]
  have hcontains : u.annotations.contains mark = u.annotations.any fun other =>
    id other == id mark := by
    rw [Bool.eq_iff_iff]
    simp
  rw [hcontains]
  split <;> rfl

theorem foldl_annotate (names : List String) (u : JavaUnit) :
    names.foldl annotate u = { u with annotations := names.foldl (addNew id) u.annotations } := by
  induction names generalizing u with
  | nil => rfl
  | cons name names ih =>
    rw [List.foldl_cons, annotate_eq, ih]
    rfl

/-- **The heading of a merged unit.** -/
theorem keepHeader_eq (h : ∀ name ∈ old.superInterfaces, IsWritten name.toList) (u : JavaUnit) :
    u.keepHeader old = { u with
      imports := old.imports.foldl (fun set name => Text.insertSorted name set) u.imports
      superInterfaces := (old.superInterfaces.map .named).foldl
        (addNew interfaceKey) u.superInterfaces
      annotations := old.annotations.foldl (addNew id) u.annotations } := by
  rw [keepHeader, foldl_annotate, foldl_keepSuperInterface h]

/-! ## Whether the declaration fits -/

theorem checkDeclared_iff : u.checkDeclared old = .ok () ↔
    old.kind = u.kind.declared ∧ old.superclass.map baseName = u.superclass.map interfaceKey := by
  have hmap : (u.superclass.map (·.shortName)).map baseName = u.superclass.map interfaceKey := by
    rw [Option.map_map]
    rfl
  rw [checkDeclared]
  simp only [hmap]
  split
  next hkind => simp [hkind]
  next hkind =>
    split
    next hsuper => simp [hsuper]
    next hsuper => simp [not_not.1 hkind, not_not.1 hsuper]

/-- A merge into a file with a declaration. -/
theorem mergeInto_of_declared {existing : String}
    (h : Declared.ofSource? (Source.ofText existing) = some old) :
    u.mergeInto existing = (u.checkDeclared old).map fun _ =>
      ((u.keepHeader old).keepMembers ((Member.ofBody old.body).filter (!·.tagged))).render := by
  rw [mergeInto, h]
  simp only
  cases u.checkDeclared old <;> rfl

/-- **When a merge gives something**, and what it gives. -/
theorem mergeInto_eq_ok_iff_of_declared {existing merged : String}
    (h : Declared.ofSource? (Source.ofText existing) = some old) :
    u.mergeInto existing = .ok merged ↔ u.checkDeclared old = .ok () ∧
      ((u.keepHeader old).keepMembers ((Member.ofBody old.body).filter (!·.tagged))).render
        = merged := by
  rw [mergeInto_of_declared h]
  cases u.checkDeclared old <;> simp [Except.map]

/-- A name without arguments and dots is its own last part. -/
theorem baseName_of_forall (h : ∀ c ∈ name.toList, isNameChar c = true) : baseName name = name := by
  have hangle : ∀ c ∈ name.toList, (c != '<') = true := fun c hc => by
    simpa using ne_of_isNameChar (h c hc) (by decide)
  have hdot : '.' ∉ name.toList := fun hmem => ne_of_isNameChar (h _ hmem) (by decide) rfl
  rw [baseName, List.takeWhile_eq_self_iff.2 hangle,
    Text.trim_of_forall fun c hc => isBlank_of_isNameChar (h c hc), Text.splitLast_of_not_mem hdot,
    String.ofList_toList]

/-- A short name that ends with a letter has neither brackets nor
arguments. -/
theorem isNameChar_of_getLast? {cs : List Char} (h : IsWritten cs)
    (hlast : cs.getLast? = some 's') :
    ∀ c ∈ cs, isNameChar c = true := by
  obtain ⟨word, tail, rfl, hword, htail⟩ := h
  cases htail with
  | array dimensions =>
    cases dimensions with
    | zero => simpa [brackets] using hword.isNameChar
    | succ dimensions =>
      rw [List.getLast?_append, getLast?_brackets, Option.some_or] at hlast
      exact absurd hlast (by decide)
  | @argument item hitem dimensions =>
    rw [← List.cons_append, ← List.append_assoc, List.getLast?_concat] at hlast
    exact absurd hlast (by decide)

/-- What is read of a superclass that was cut is not the superclass. -/
theorem Legible.cut_ne (h : u.Legible) (harray : ¬ u.IsArray) {t : JavaType} (ht : t ∈ u.superclass)
    (hne : u.superInterfaces ≠ []) (hend : "implements".toList <:+ t.shortName.toList) :
    u.readSuperclass.map baseName ≠ some (interfaceKey t) := by
  obtain ⟨front, hcut⟩ := hend
  have hlast : t.shortName.toList.getLast? = some 's' := by
    rw [← hcut, List.getLast?_append]
    rfl
  have hname := isNameChar_of_getLast? (h.superclass t ht) hlast
  have hfront : ∀ c ∈ front, isNameChar c = true :=
    fun c hc => hname c (hcut ▸ List.mem_append_left _ hc)
  rw [h.readSuperclass_cut harray ht hne hcut.symm, interfaceKey, baseName_of_forall hname]
  by_cases hnone : front = []
  · rw [hnone]
    exact (Option.some_ne_none _).symm
  · have hitem : Text.IsItem front :=
      { ne_nil := hnone
        comma := fun hmem => ne_of_isNameChar (hfront _ hmem) (by decide) rfl
        blank := fun c hc => isBlank_of_isNameChar (hfront c hc)
        balanced := sum_nesting_eq_zero fun c hc => nesting_of_isNameChar (hfront c hc) }
    have hread : baseName (String.ofList front) = String.ofList front :=
      baseName_of_forall (by simpa using hfront)
    rw [typeList, Text.listItems_singleton hitem]
    show some (baseName (String.ofList front)) ≠ some t.shortName
    rw [hread]
    intro heq
    have hlength := congrArg (fun name : String => name.toList.length) (Option.some.inj heq)
    simp only [String.toList_ofList, ← hcut, List.length_append] at hlength
    exact absurd hlength (by simp)

/-- **A file that was written with the superclass of the fresh unit fits**
exactly if the superclass can be read back. -/
theorem Legible.checkDeclared_declared (h : v.Legible) (hkind : v.kind = u.kind)
    (hsuper : v.superclass = u.superclass) :
    u.checkDeclared v.declared = .ok () ↔ v.SuperclassLegible := by
  have hfits : u.checkDeclared v.declared = .ok () ↔
      v.readSuperclass.map baseName = v.superclass.map interfaceKey := by
    rw [checkDeclared_iff, hsuper]
    exact and_iff_right (congrArg TypeKind.declared hkind)
  rw [hfits]
  constructor
  · intro hread t ht
    rw [Option.mem_def.1 ht, Option.map_some] at hread
    have harray : ¬ v.IsArray := by
      intro harray
      rw [(h.readClauses_array harray).1] at hread
      exact absurd hread.symm (Option.some_ne_none _)
    exact ⟨harray, fun hne hend => h.cut_ne harray ht hne hend hread⟩
  · intro hlegible
    by_cases harray : v.IsArray
    · have hnone : v.superclass = none := by
        rw [Option.eq_none_iff_forall_ne_some]
        exact fun t ht => (hlegible t ht).1 harray
      rw [(h.readClauses_array harray).1, hnone]
      rfl
    · rw [(h.readClauses_eq harray hlegible).1, Option.map_map]
      rfl

/-! ## A heading that is kept twice -/

theorem Legible.isWritten_interfaceNames (h : u.Legible) :
    ∀ name ∈ u.interfaceNames, IsWritten name.toList := by
  intro name hname
  obtain ⟨t, ht, rfl⟩ := List.mem_map.1 hname
  exact h.superInterfaces t ht

/-- The interfaces that are read, if the superclass can be. -/
theorem Legible.readSuperInterfaces_cases (h : u.Legible) (hlegible : u.SuperclassLegible) :
    u.IsArray ∧ u.readSuperInterfaces = [] ∨ ¬ u.IsArray ∧
    u.readSuperInterfaces = u.interfaceNames := by
  by_cases harray : u.IsArray
  · exact .inl ⟨harray, (h.readClauses_array harray).2⟩
  · exact .inr ⟨harray, (h.readClauses_eq harray hlegible).2⟩

theorem Legible.isWritten_readSuperInterfaces (h : u.Legible) (hlegible : u.SuperclassLegible) :
    ∀ name ∈ u.readSuperInterfaces, IsWritten name.toList := by
  rcases h.readSuperInterfaces_cases hlegible with ⟨-, hread⟩ | ⟨-, hread⟩
  · simp [hread]
  · rw [hread]
    exact h.isWritten_interfaceNames

/-- **The heading of a unit that is merged into a written file.** -/
theorem Legible.keepHeader_declared (h : v.Legible) (hlegible : v.SuperclassLegible)
    (u : JavaUnit) :
    u.keepHeader v.declared = { u with
      imports := (v.imports.filter isReadable).foldl
        (fun set name => Text.insertSorted name set) u.imports
      superInterfaces := (v.readSuperInterfaces.map .named).foldl
        (addNew interfaceKey) u.superInterfaces
      annotations := v.annotations.foldl (addNew id) u.annotations } :=
  keepHeader_eq (h.isWritten_readSuperInterfaces hlegible) u

/-- What is read from the heading of a written file can be written again. -/
theorem Legible.declared_legible (h : v.Legible) (hlegible : v.SuperclassLegible) :
    v.declared.Legible where
  superInterfaces := by
    intro name hname
    have hwritten := h.isWritten_readSuperInterfaces hlegible name hname
    rwa [JavaType.shortName_named hwritten]
  imports := fun name hname => h.imports name (List.mem_of_mem_filter hname)
  annotations := h.annotations

/-- **A merged unit can be read back** as far as its parts can. -/
theorem Legible.keepHeader (hu : u.Legible) (hold : old.Legible) : (u.keepHeader old).Legible := by
  obtain ⟨added, hadded, hextended⟩ := exists_foldl_keepSuperInterface old.superInterfaces
    { u with imports := old.imports.foldl (fun set name => Text.insertSorted name set) u.imports }
  rw [JavaUnit.keepHeader, foldl_annotate, hextended]
  exact {
    type := hu.type
    package := hu.package
    superclass := hu.superclass
    superInterfaces := by
      intro t ht
      rcases List.mem_append.1 ht with ht | ht
      · exact hu.superInterfaces t ht
      · obtain ⟨name, hname, rfl⟩ := hadded t ht
        exact hold.superInterfaces name hname
    noSuperclass := hu.noSuperclass
    imports := by
      intro name hname
      rcases Text.mem_foldl_insertSorted.1 hname with hname | hname
      · exact hold.imports name hname
      · exact hu.imports name hname
    annotations := by
      intro text htext
      obtain ⟨new, hoffered, hall, -⟩ := exists_foldl_addNew id u.annotations old.annotations
      rw [hall] at htext
      rcases List.mem_append.1 htext with htext | htext
      · exact hu.annotations text htext
      · exact hold.annotations text (hoffered text htext)
    javadoc := hu.javadoc }

/-- **A heading that has been kept is kept as it is**: what is merged into a
file with the imports, interfaces and annotations of a merged unit gets the
same ones again. -/
theorem keepHeader_again {w : JavaUnit} (hu : u.Legible) (hv : v.Legible) (hw : w.Legible)
    (hsorted : u.imports.Pairwise (· < ·)) (hlegible : v.SuperclassLegible)
    (hagain : w.SuperclassLegible)
    (harray : w.IsArray ↔ v.IsArray) (himports : w.imports = (u.keepHeader v.declared).imports)
    (hinterfaces : w.superInterfaces = (u.keepHeader v.declared).superInterfaces)
    (hannotations : w.annotations = (u.keepHeader v.declared).annotations) :
    u.keepHeader w.declared = u.keepHeader v.declared := by
  rw [hv.keepHeader_declared hlegible] at himports hinterfaces hannotations ⊢
  rw [hw.keepHeader_declared hagain]
  simp only at himports hinterfaces hannotations
  -- each part of the heading is what was added to that of `u`, and offering again what was added
  -- adds nothing
  have himported : (w.imports.filter isReadable).foldl
      (fun set name => Text.insertSorted name set) u.imports
      = (v.imports.filter isReadable).foldl
        (fun set name => Text.insertSorted name set) u.imports := by
    rw [himports]
    refine Text.foldl_insertSorted_congr hsorted fun name => ?_
    rw [List.mem_filter, Text.mem_foldl_insertSorted, List.mem_filter]
    tauto
  have hextended : (w.readSuperInterfaces.map .named).foldl (addNew interfaceKey) u.superInterfaces
      = (v.readSuperInterfaces.map .named).foldl (addNew interfaceKey) u.superInterfaces := by
    rcases hw.readSuperInterfaces_cases hagain with ⟨hbrackets, hread⟩ | ⟨-, hread⟩
    · rw [hread, (hv.readClauses_array (harray.1 hbrackets)).2]
    · rw [hread, interfaceNames, hinterfaces, List.map_map]
      refine foldl_addNew_again (fun t ht => ?_) fun t ht => ?_
      · show baseName (JavaType.named t.shortName).shortName = baseName t.shortName
        rw [JavaType.shortName_named (hu.superInterfaces t ht)]
      · obtain ⟨name, hname, rfl⟩ := List.mem_map.1 ht
        show JavaType.named (JavaType.named name).shortName = JavaType.named name
        rw [JavaType.shortName_named (hv.isWritten_readSuperInterfaces hlegible name hname)]
  have hannotated : w.annotations.foldl (addNew id) u.annotations
      = v.annotations.foldl (addNew id) u.annotations := by
    have htwice : ((v.annotations.foldl (addNew id) u.annotations).map id).foldl
        (addNew id) u.annotations
        = v.annotations.foldl (addNew id) u.annotations :=
      foldl_addNew_again (fun _ _ => rfl) fun _ _ => rfl
    rw [List.map_id] at htwice
    rw [hannotations, htwice]
  rw [himported, hextended, hannotated]

end

end JavaUnit

end TableMapper
