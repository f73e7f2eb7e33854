import TableMapper.Proofs.Merge.OwnComments
import TableMapper.Proofs.Unit.Modifiers

/-!
# The annotations of a type, kept

A merge adds the annotations of the existing type to those of the fresh one,
each once (`exists_annotations_mergedFrom`). So **they are kept intact exactly
if they are read intact** (`JavaUnit.keepsAnnotations_iff`): each has its name
directly behind the sign and no closing parenthesis inside of its arguments. An
annotation in the arguments of another one that has arguments itself cuts the
outer one short.
-/

namespace TableMapper

open Source

/-- **A file of which the modifiers are cut into annotations.** The package and
the imports hold none. -/
structure TypeFile.IsAnnotated (f : TypeFile) (kind : DeclaredKind) (m : Modifiers) : Prop
    extends f.IsDeclaredAs kind where
  unmarked : ∀ c ∈ ofText f.front, c.code ≠ '@'
  modifiers : f.modifiers = m.text
  isModifiers : m.IsModifiers

namespace JavaUnit

/-- **The annotations of the type are kept**: behind the fresh ones stand those
that the fresh unit lacks, each once and with its full text, and no others. -/
def KeepsAnnotations (fresh : JavaUnit) (f : TypeFile) (m : Modifiers) : Prop :=
  ∀ merged, fresh.mergeInto f.text = .ok merged →
    ∃ old kept, Declared.ofSource? (ofText f.text) = some old ∧
    (fresh.mergedFrom old).render = merged ∧
      (fresh.mergedFrom old).annotations = fresh.annotations ++ kept ∧ kept.Nodup ∧
      ∀ text, text ∈ kept ↔ text ∈ m.marks ∧ text ∉ fresh.annotations

section

variable {fresh : JavaUnit} {existing merged text : String} {old : Declared}
  {items added : List String}
  {f : TypeFile} {kind : DeclaredKind} {m : Modifiers} {tail : Source}

/-! ## What a merge adds -/

/-- What is added to some items are those that they lack, each once. -/
theorem exists_foldl_addNew_id (items added : List String) :
    ∃ new, added.foldl (addNew id) items = items ++ new ∧
    new.Nodup ∧ ∀ item, item ∈ new ↔ item ∈ added ∧ item ∉ items := by
  induction added generalizing items with
  | nil => exact ⟨[], by simp, by simp, by simp⟩
  | cons first added ih =>
    rw [List.foldl_cons, addNew]
    split
    next hthere =>
      obtain ⟨new, hadded, hnodup, hmem⟩ := ih items
      have hfirst : first ∈ items := by simpa using hthere
      refine ⟨new, hadded, hnodup, fun item => ?_⟩
      rw [hmem, List.mem_cons]
      refine and_congr_left fun hnot => (or_iff_right ?_).symm
      rintro rfl
      exact hnot hfirst
    next hthere =>
      obtain ⟨new, hadded, hnodup, hmem⟩ := ih (items ++ [first])
      have hfirst : first ∉ items := by simpa using hthere
      refine ⟨first :: new, by rw [hadded, List.append_assoc]; rfl, List.nodup_cons.2 ⟨?_, hnodup⟩,
        fun item => ?_⟩
      · rw [hmem]
        simp
      · rw [List.mem_cons, hmem, List.mem_cons, List.mem_append, List.mem_singleton]
        by_cases heq : item = first
        · simp [heq, hfirst]
        · simp [heq]

theorem annotations_mergedFrom (fresh : JavaUnit) (old : Declared) :
    (fresh.mergedFrom old).annotations = old.annotations.foldl (addNew id) fresh.annotations := by
  obtain ⟨extended, -, hextended⟩ := exists_foldl_keepSuperInterface old.superInterfaces
    { fresh with imports := old.imports.foldl (fun set name => Text.insertSorted name set) fresh.imports }
  show (fresh.keepHeader old).annotations = _
  rw [keepHeader, foldl_annotate, hextended]

/-- **The annotations of the merged type.** -/
theorem exists_annotations_mergedFrom (fresh : JavaUnit) (old : Declared) :
    ∃ kept, (fresh.mergedFrom old).annotations = fresh.annotations ++ kept ∧ kept.Nodup ∧
      ∀ text, text ∈ kept ↔ text ∈ old.annotations ∧ text ∉ fresh.annotations := by
  rw [annotations_mergedFrom]
  exact exists_foldl_addNew_id fresh.annotations old.annotations

/-! ## What is read of the annotations -/

/-- The annotations that are read are those of the modifiers. -/
theorem annotations_declared (hf : f.IsAnnotated kind m) :
    ∃ tail rest, f.prelude kind = f.lead ++ tail ∧
    ofText f.keyword = tail ++ rest ∧ EndsMarks tail ∧
    (f.declared kind).annotations = (marksFrom 0 (ofText m.text ++ tail)).map (·.text) := by
  obtain ⟨tail, rest, hprelude, hkeyword, hsemicolon, htail⟩ := hf.exists_prelude
  have hends : EndsMarks tail := by
    obtain rfl | ⟨sign, gap, rfl, hsign, hgap⟩ := htail
    · exact .nil
    · exact .sign hsign hgap
  refine ⟨tail, rest, hprelude, hkeyword, hends, ?_⟩
  have hhead : ∀ c ∈ ofText m.text ++ tail, c.code ≠ ';' := by
    intro c hc
    rcases List.mem_append.1 hc with hc | hc
    · exact hf.isModifiers.semicolon c hc
    · exact hsemicolon c hc
  rw [TypeFile.declared, Declared.ofDeclaration]
  simp only
  rw [hprelude, TypeFile.lead, hf.modifiers, List.append_assoc,
    marksFrom_behindPrelude hf.unmarked hhead]

/-- Annotations without a closing parenthesis inside are read as they are. -/
theorem annotations_declared_of_flat (hf : f.IsAnnotated kind m)
    (hflat : ∀ text ∈ m.marks, IsFlatMark (codes (ofText text))) : (f.declared kind).annotations
      = m.marks := by
  obtain ⟨tail, rest, -, -, hends, hread⟩ := annotations_declared hf
  rw [hread, hf.isModifiers.marksFrom hflat hends, map_text_ofText]

/-- **What is read has no closing parenthesis inside.** -/
theorem isFlatMark_of_mem_annotations (hf : f.IsAnnotated kind m)
    (htext : text ∈ (f.declared kind).annotations) :
    IsFlatMark (codes (ofText text)) := by
  obtain ⟨tail, rest, -, hkeyword, -, hread⟩ := annotations_declared hf
  rw [hread] at htext
  obtain ⟨mark, hmark, rfl⟩ := List.mem_map.1 htext
  obtain ⟨front, back, hcut, hflat⟩ := exists_of_mem_marksFrom hmark
  have hfile : ∃ behind, ofText f.text = (ofText f.front ++ front) ++ (mark ++ behind) := by
    refine ⟨back ++ (rest ++ (ofText f.name ++ (ofText f.header ++ shown '\x7b' :: ofText f.body))),
      ?_⟩
    rw [hf.ofText_text, hkeyword, TypeFile.lead, hf.modifiers]
    have hall := congrArg
      (· ++ (rest ++ (ofText f.name ++ (ofText f.header ++ shown '\x7b' :: ofText f.body)))) hcut
    simpa using hall
  obtain ⟨behind, hfile⟩ := hfile
  rw [ofText_mark hfile hflat]
  exact hflat

/-- **The annotations of a type are kept intact**, whatever is merged into its
file, exactly if each has its name directly behind the sign and no closing
parenthesis inside of its arguments. -/
theorem keepsAnnotations_iff (hf : f.IsAnnotated kind m)
    (hok : ∃ (fresh : JavaUnit) (merged : String), fresh.mergeInto f.text = .ok merged) :
    (∀ fresh : JavaUnit, fresh.KeepsAnnotations f m) ↔ ∀ text ∈ m.marks, IsFlatMark (codes (ofText text)) := by
  have hold : Declared.ofSource? (ofText f.text) = some (f.declared kind) := hf.ofSource?_text
  constructor
  · intro hkeeps text htext
    obtain ⟨fresh, merged, hmerged⟩ := hok
    -- a unit without annotations of its own shows what is read
    obtain ⟨bare, -, -, -, hnone, written, hbare⟩ := exists_mergeInto_bare hmerged
    obtain ⟨old, kept, hread, -, hkept, -, hmem⟩ := hkeeps bare written hbare
    obtain rfl := Option.some.inj (hold.symm.trans hread)
    obtain ⟨added, hadded, -, hoffered⟩ := exists_annotations_mergedFrom bare (f.declared kind)
    obtain rfl : kept = added := by
      rw [hkept] at hadded
      exact List.append_cancel_left hadded
    have hkeep : text ∈ kept := (hmem text).2 ⟨htext, by simp [hnone]⟩
    exact isFlatMark_of_mem_annotations hf ((hoffered text).1 hkeep).1
  · intro hflat fresh merged hmerged
    obtain ⟨kept, hkept, hnodup, hmem⟩ := exists_annotations_mergedFrom fresh (f.declared kind)
    rw [annotations_declared_of_flat hf hflat] at hmem
    exact ⟨_, kept, hold, ((mergeInto_eq_ok_iff_of_declared hold).1 hmerged).2, hkept, hnodup, hmem⟩

end

/-! ## Two files -/

/-- A class with an annotation of which the argument is a text with
parentheses. -/
def tableFile : TypeFile where
  front := "package a;"
  modifiers := "\n\n@Table(\"orders()\")\npublic "
  keyword := "class "
  name := "Orders"
  header := " "
  body := "\n\x7d\n"

def tableModifiers : Modifiers where
  front := "\n\n"
  clauses := [⟨"@Table(\"orders()\")", "\npublic "⟩]

theorem isAnnotated_tableFile : tableFile.IsAnnotated .class tableModifiers where
  front_settled := settled_of_inert (by decide)
  modifiers_settled := settled_of_getLast? (c := ' ') (by decide) (by decide)
  keyword_settled := settled_of_inert (by decide)
  name_settled := settled_of_inert (by decide)
  header_settled := settled_of_inert (by decide)
  idle := idle_of_tails (by decide) (by decide)
  separate := by decide
  keyword := ⟨"class".toList, [' '], by decide, .inl rfl, by decide, by decide⟩
  name := by decide
  header := by decide
  name_ends := by decide
  unmarked := by decide
  modifiers := by decide
  isModifiers := by
    refine ⟨⟨settled_of_inert (by decide), by decide⟩, List.forall_mem_singleton.2 ?_⟩
    exact {
      settled := settled_of_getLast? (c := ')') (by decide) (by decide)
      mark := ⟨[], "Table".toList, '(' :: ("\"        \"".toList ++ [')']), by decide, by decide,
        .part (by decide) (by decide), .inr ⟨[], "\"        \"".toList, rfl, by decide,
          Text.balanced_of_inits (by decide) (by decide), by decide⟩⟩
      behind := ⟨settled_of_inert (by decide), by decide⟩
      apart := .inl (by decide) }

/-- Parentheses in a text are no closing parentheses of the code. -/
theorem keepsAnnotations_tableFile : (∃ merged, orders.mergeInto tableFile.text = .ok merged) ∧
    ∀ fresh : JavaUnit, fresh.KeepsAnnotations tableFile tableModifiers := by
  have hok : ∃ merged, orders.mergeInto tableFile.text = .ok merged :=
    exists_merged (by decide +kernel)
  refine ⟨hok, (keepsAnnotations_iff isAnnotated_tableFile ⟨orders, hok⟩).2
    (List.forall_mem_singleton.2 ?_)⟩
  exact ⟨'T', "able".toList, '(' :: ("\"        \"".toList ++ [')']), by decide, by decide, by
    decide, .inr ⟨[], "\"        \"".toList, rfl, by decide, by decide⟩⟩

/-- A class with an annotation in an annotation. -/
def indexedFile : TypeFile :=
  { tableFile with modifiers := "\n\n@Indexes(@Index(\"code\"))\npublic " }

def indexedModifiers : Modifiers where
  front := "\n\n"
  clauses := [⟨"@Indexes(@Index(\"code\"))", "\npublic "⟩]

theorem isAnnotated_indexedFile : indexedFile.IsAnnotated .class indexedModifiers :=
  { isAnnotated_tableFile with
    modifiers_settled := settled_of_getLast? (c := ' ') (by decide) (by decide)
    idle := idle_of_tails (by decide) (by decide)
    separate := by decide
    modifiers := by decide
    isModifiers := by
      refine ⟨⟨settled_of_inert (by decide), by decide⟩, List.forall_mem_singleton.2 ?_⟩
      exact {
        settled := settled_of_getLast? (c := ')') (by decide) (by decide)
        mark :=
        ⟨[], "Indexes".toList, '(' :: ("@Index(\"    \")".toList ++ [')']), by decide, by decide,
          .part (by decide) (by decide), .inr ⟨[], "@Index(\"    \")".toList, rfl, by decide,
            Text.balanced_of_inits (by decide) (by decide), by decide⟩⟩
        behind := ⟨settled_of_inert (by decide), by decide⟩
        apart := .inl (by decide) } }

/-- **An annotation with an annotation inside is cut**: what is written ends at
the first parenthesis. -/
theorem not_keepsAnnotations_indexedFile : indexedFile.IsAnnotated .class indexedModifiers ∧
    ¬ orders.KeepsAnnotations indexedFile indexedModifiers := by
  refine ⟨isAnnotated_indexedFile, fun hkeeps => ?_⟩
  have hread : (Declared.ofSource? (ofText indexedFile.text)).map (·.annotations)
      = some ["@Indexes(@Index(\"code\")"] := by
    decide +kernel
  obtain ⟨merged, hmerged⟩ : ∃ merged, orders.mergeInto indexedFile.text = .ok merged :=
    exists_merged (by decide +kernel)
  obtain ⟨old, kept, hold, -, hkept, -, hmem⟩ := hkeeps merged hmerged
  have hold : old.annotations = ["@Indexes(@Index(\"code\")"] := by simpa [hold] using hread
  have hin : "@Indexes(@Index(\"code\"))" ∈ kept := (hmem _).2 (by decide)
  rw [annotations_mergedFrom, hold] at hkept
  have hcut : kept = ["@Indexes(@Index(\"code\")"] := hkept.symm
  rw [hcut] at hin
  exact absurd hin (by decide)

end JavaUnit

end TableMapper
