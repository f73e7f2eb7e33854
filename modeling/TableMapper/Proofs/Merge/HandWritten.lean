import TableMapper.Proofs.Merge.KeptHeading
import TableMapper.Proofs.Merge.Members

/-!
# Hand-written members survive

A file is written from a unit, hand-written members are added to its type,
and a fresh unit of the same type is merged into it. **The hand-written
members are kept, in place of fresh ones with their keys, and to merge the
fresh unit once more changes nothing** (`keepsMembers_iff`).

One thing stands against it. The word that introduces the interfaces of a
class is looked for without regard to what stands in front of it, so the
name of a superclass that ends with this word is cut, and nothing is read
behind the brackets of an array. In these cases the superclass of the file
is not the one that was written, and the merge fails.
-/

namespace TableMapper

open Source

/-! ## Members of generators and of others -/

/-- **A member as it is generated**: its documentation bears the retention
tag, and by itself its text is read as one member. -/
structure IsGenerated (lines : List String) (text : String) : Prop where
  javadoc : IsJavadoc lines
  tagged : ∃ line ∈ lines, Settings.retentionTag.toList <:+: line.toList
  readsAs : ∃ member, Member.ReadsAs text member

/-- **A hand-written member**: by itself its text is read as one member,
without the retention tag. -/
def IsHandWritten (text : String) : Prop :=
  ∃ member, Member.ofBody (Source.ofText text) = [member] ∧
    member.text = text ∧ member.tagged = false

/-- The members that some texts are read as, each by itself. -/
def membersOf (texts : List String) : List Member :=
  texts.flatMap fun text => Member.ofBody (Source.ofText text)

/-- The keys of the members that some texts are read as. -/
def keysOf (texts : List String) : List MemberKey :=
  (membersOf texts).filterMap (·.key)

section

variable {lines : List String} {text : String} {texts : List String}

theorem IsHandWritten.readsAs (h : IsHandWritten text) :
    ∃ member, membersOf [text] = [member] ∧ Member.ReadsAs text member ∧ member.text = text ∧
      member.tagged = false := by
  obtain ⟨member, hbody, htext, htagged⟩ := h
  refine ⟨member, ?_, ?_, htext, htagged⟩
  · rw [membersOf, List.flatMap_singleton, hbody]
  · have hself : Member.ReadsAs member.text member := Member.ReadsAs.of_self (by rw [htext, hbody])
    rwa [htext] at hself

/-- **A generated member is seen to be one**, wherever it stands. -/
theorem IsGenerated.holds (h : IsGenerated lines text)
    (htext : ∃ behind, text.toList = (renderJavadoc memberIndent lines).toList ++ behind) :
    ∃ member, Holds text.toList member ∧ member.text = Text.trimmed text ∧
    member.tagged = true := by
  obtain ⟨member, hreads⟩ := h.readsAs
  obtain ⟨line, hline, htag⟩ := h.tagged
  obtain ⟨behind, hbehind⟩ := htext
  have hholds := hreads.holds
  have hsilent : Silent (renderJavadoc memberIndent lines).toList :=
    silent_javadoc (by decide) h.javadoc
  refine ⟨member, hholds, hreads.2, ?_⟩
  rw [hbehind] at hholds
  exact hholds.tagged hsilent (htag.trans (infix_javadoc hline))

/-- Generated members, none of which is kept. -/
theorem exists_generated (h : ∀ text ∈ texts, ∃ member, Holds text.toList member ∧
      member.text = Text.trimmed text ∧ member.tagged = true) :
    ∃ members, List.Forall₂ (fun text member => Holds text.toList member) texts members ∧
      members.filter (!·.tagged) = [] ∧ members.map (·.text) = texts.map Text.trimmed := by
  induction texts with
  | nil => exact ⟨[], .nil, rfl, rfl⟩
  | cons text texts ih =>
    obtain ⟨member, hholds, htext, htagged⟩ := h text List.mem_cons_self
    obtain ⟨members, hall, hnone, htexts⟩ :=
      ih fun other hother => h other (List.mem_cons_of_mem text hother)
    refine ⟨member :: members, .cons hholds hall, ?_, ?_⟩
    · rw [List.filter_cons_of_neg (by simp [htagged]), hnone]
    · rw [List.map_cons, List.map_cons, htext, htexts]

/-- Hand-written members, all of which are kept as they are. -/
theorem forall₂_handWritten (h : ∀ text ∈ texts, IsHandWritten text) :
    List.Forall₂ (fun text member => Holds text.toList member)
        (texts.map fun text => memberIndent ++ text ++ "\n") (membersOf texts) ∧
      (membersOf texts).filter (!·.tagged) = membersOf texts ∧
      (membersOf texts).map (·.text) = texts := by
  induction texts with
  | nil => exact ⟨.nil, rfl, rfl⟩
  | cons text texts ih =>
    obtain ⟨member, hmember, hreads, htext, htagged⟩ := (h text List.mem_cons_self).readsAs
    obtain ⟨hall, hkept, htexts⟩ :=
      ih fun other hother => h other (List.mem_cons_of_mem text hother)
    have hcons : membersOf (text :: texts) = member :: membersOf texts := by
      show membersOf ([text] ++ texts) = _
      rw [membersOf, List.flatMap_append]
      exact congrArg (· ++ membersOf texts) hmember
    have hholds : Holds (memberIndent ++ text ++ "\n").toList member := by
      have hindented := (hreads.holds.lead (show Text.Blank memberIndent.toList by decide)).trail
        (show Text.Blank "\n".toList by decide)
      rwa [← String.toList_append, ← String.toList_append] at hindented
    rw [hcons]
    refine ⟨.cons hholds hall, ?_, ?_⟩
    · rw [List.filter_cons_of_pos (by simp [htagged]), hkept]
    · rw [List.map_cons, htext, htexts]

end

/-- The text of a field begins with its documentation. -/
theorem Field.exists_render_eq (f : Field) :
    ∃ behind, f.render.toList = (renderJavadoc memberIndent f.javadoc).toList ++ behind := by
  simp only [Field.render, String.toList_append, List.append_assoc]
  exact ⟨_, rfl⟩

/-- The text of a method begins with its documentation. -/
theorem Method.exists_render_eq (owner : JavaType) (m : Method) :
    ∃ behind, (m.render owner).toList
      = (renderJavadoc memberIndent m.javadoc).toList ++ behind := by
  simp only [Method.render, String.toList_append, List.append_assoc]
  exact ⟨_, rfl⟩

namespace JavaUnit

/-- **A unit as generators build it.** -/
structure WellFormed (u : JavaUnit) : Prop where
  type : u.type.IsPlain
  superclass : ∀ t ∈ u.superclass, t.IsPlain
  superInterfaces : ∀ t ∈ u.superInterfaces, t.IsPlain
  noSuperclass : u.kind = .interface → u.superclass = none
  imports : ∀ name ∈ u.imports, IsImport name.toList
  ascending : u.imports.Pairwise (· < ·)
  annotations : ∀ text ∈ u.annotations, IsAnnotation text
  javadoc : IsJavadoc u.javadoc
  fields : ∀ f ∈ u.fields, IsGenerated f.javadoc f.render
  methods : ∀ m ∈ u.methods, IsGenerated m.javadoc (m.render u.type)

/-- **A unit with the members of a fresh one and hand-written ones**, which
take the place of those with their keys. Its heading is that of the fresh
one with the imports, interfaces and annotations of an existing one. -/
structure IsMerge (u v : JavaUnit) (texts : List String) (merged : JavaUnit) : Prop where
  same : merged = { u with
    imports := merged.imports
    superInterfaces := merged.superInterfaces
    annotations := merged.annotations
    fields := u.fields.filter fun f => !(keysOf texts).contains f.key
    methods := u.methods.filter fun m => !(keysOf texts).contains (m.key u.type.shortName)
    retained := texts }
  imports : ∀ name, name ∈ merged.imports ↔ name ∈ u.imports ∨ name ∈ v.imports ∧
    isReadable name = true
  superInterfaces : u.superInterfaces <+: merged.superInterfaces ∧
    (¬ u.IsArray → ∀ t ∈ v.superInterfaces, ∃ other ∈ merged.superInterfaces,
      interfaceKey other = interfaceKey t)
  annotations : u.annotations <+: merged.annotations ∧
    ∀ text, text ∈ merged.annotations ↔ text ∈ u.annotations ∨ text ∈ v.annotations

/-- **Hand-written members survive a merge**, in a file that was written
from a unit with these members: the merge gives a file with the members of
the fresh unit and the hand-written ones, and to merge once more gives the
same file. -/
def KeepsMembers (u v : JavaUnit) (texts : List String) : Prop :=
  ∃ merged old, u.IsMerge v texts merged ∧
    u.mergeInto { v with retained := texts }.render = .ok merged.render ∧
    Declared.ofSource? (Source.ofText merged.render) = some old ∧
    (Member.ofBody old.body).map (·.text)
      = (merged.fields.map (·.render) ++ merged.methods.map (·.render u.type)).map
        Text.trimmed ++ texts ∧
    u.mergeInto merged.render = .ok merged.render

/-- Members that are generated or hand-written. -/
structure IsComposed (w : JavaUnit) : Prop where
  fields : ∀ f ∈ w.fields, IsGenerated f.javadoc f.render
  methods : ∀ m ∈ w.methods, IsGenerated m.javadoc (m.render w.type)
  retained : ∀ text ∈ w.retained, IsHandWritten text

section

variable {u v w : JavaUnit} {texts : List String} {text : String} {members : List Member}

/-! ## Merging into a written file -/

theorem WellFormed.legible (h : u.WellFormed) : u.Legible where
  type := JavaType.isWritten_shortName h.type
  package := JavaType.isDotted_packageName? h.type
  superclass := fun t ht => JavaType.isWritten_shortName (h.superclass t ht)
  superInterfaces := fun t ht => JavaType.isWritten_shortName (h.superInterfaces t ht)
  noSuperclass := h.noSuperclass
  imports := h.imports
  annotations := h.annotations
  javadoc := h.javadoc

/-- **The members of a written file.** -/
theorem IsComposed.exists_members (h : w.IsComposed) :
    ∃ members, List.Forall₂ (fun text member => Holds text.toList member) w.memberTexts members ∧
      members.filter (!·.tagged) = membersOf w.retained ∧
      members.map (·.text)
        = (w.fields.map (·.render) ++ w.methods.map (·.render w.type)).map Text.trimmed ++
        w.retained := by
  have hgenerated : ∀ text ∈ w.fields.map (·.render) ++ w.methods.map (·.render w.type),
      ∃ member, Holds text.toList member ∧ member.text = Text.trimmed text ∧
      member.tagged = true := by
    intro text htext
    rcases List.mem_append.1 htext with hfield | hmethod
    · obtain ⟨f, hf, rfl⟩ := List.mem_map.1 hfield
      exact (h.fields f hf).holds f.exists_render_eq
    · obtain ⟨m, hm, rfl⟩ := List.mem_map.1 hmethod
      exact (h.methods m hm).holds (m.exists_render_eq w.type)
  obtain ⟨generated, hall, hnone, htexts⟩ := exists_generated hgenerated
  obtain ⟨hretained, hkept, hsame⟩ := forall₂_handWritten h.retained
  refine ⟨generated ++ membersOf w.retained, List.rel_append hall hretained, ?_, ?_⟩
  · rw [List.filter_append, hnone, hkept, List.nil_append]
  · rw [List.map_append, htexts, hsame]

theorem ofBody_declared
    (hmembers : List.Forall₂ (fun text member => Holds text.toList member) w.memberTexts members) :
    Member.ofBody w.declared.body = members :=
  ofBody_written hmembers (show Text.Blank ['\n'] by decide) ['\n']

/-- A merge into a file that was written from a unit. -/
theorem Legible.mergeInto_render (h : w.Legible)
    (hmembers : List.Forall₂ (fun text member => Holds text.toList member) w.memberTexts members)
    (u : JavaUnit) :
    u.mergeInto w.render = (u.checkDeclared w.declared).map fun _ =>
      ((u.keepHeader w.declared).keepMembers (members.filter (!·.tagged))).render := by
  rw [mergeInto_of_declared h.ofSource?_render, ofBody_declared hmembers]

/-- The fresh unit with what is kept of another one and with hand-written
members. -/
def mergedWith (u v : JavaUnit) (texts : List String) : JavaUnit :=
  (u.keepHeader v.declared).keepMembers (membersOf texts)

/-- **What a merge into a written file gives**, and when it gives
something. -/
theorem mergeInto_eq_ok_iff (h : w.Legible) (hw : w.IsComposed) (hkind : w.kind = u.kind)
    (hsuper : w.superclass = u.superclass) :
    u.mergeInto w.render = .ok text ↔ w.SuperclassLegible ∧
    (u.mergedWith w w.retained).render = text := by
  obtain ⟨members, hmembers, hkept, -⟩ := hw.exists_members
  rw [h.mergeInto_render hmembers, hkept, ← h.checkDeclared_declared hkind hsuper]
  cases hcheck : u.checkDeclared w.declared with
  | error reason => simp [Except.map]
  | ok fits => simp [Except.map, mergedWith]

/-! ## The merged unit -/

theorem mergedWith_eq (hv : v.Legible) (hlegible : v.SuperclassLegible) (u : JavaUnit)
    (texts : List String) :
    u.mergedWith v texts = { u with
      imports := (v.imports.filter isReadable).foldl
        (fun set name => Text.insertSorted name set) u.imports
      superInterfaces := (v.readSuperInterfaces.map .named).foldl
        (addNew interfaceKey) u.superInterfaces
      annotations := v.annotations.foldl (addNew id) u.annotations
      fields := u.fields.filter fun f => !(keysOf texts).contains f.key
      methods := u.methods.filter fun m => !(keysOf texts).contains (m.key u.type.shortName)
      retained := (membersOf texts).map (·.text) } := by
  rw [mergedWith, hv.keepHeader_declared hlegible]
  rfl

/-- **The merged unit has what it should have.** -/
theorem isMerge_mergedWith (hv : v.Legible) (hlegible : v.SuperclassLegible)
    (htype : v.type = u.type)
    (htexts : ∀ text ∈ texts, IsHandWritten text) : u.IsMerge v texts (u.mergedWith v texts) := by
  obtain ⟨-, -, hsame⟩ := forall₂_handWritten htexts
  rw [mergedWith_eq hv hlegible, hsame]
  obtain ⟨newInterfaces, -, hinterfaces, -⟩ :=
    exists_foldl_addNew interfaceKey u.superInterfaces (v.readSuperInterfaces.map .named)
  obtain ⟨newAnnotations, hoffered, hannotations, -⟩ :=
    exists_foldl_addNew id u.annotations v.annotations
  -- imports are a sorted union; interfaces and annotations are those of `u` with new ones behind
  refine ⟨rfl, fun name => ?_, ⟨⟨newInterfaces, hinterfaces.symm⟩, fun harray t ht => ?_⟩,
    ⟨newAnnotations, hannotations.symm⟩, fun text => ⟨fun htext => ?_, fun htext => ?_⟩⟩
  · show name ∈ (v.imports.filter isReadable).foldl
        (fun set name => Text.insertSorted name set) u.imports ↔ _
    rw [Text.mem_foldl_insertSorted, List.mem_filter]
    tauto
  · have hread : v.readSuperInterfaces = v.interfaceNames :=
      (hv.readClauses_eq (by rwa [IsArray, htype]) hlegible).2
    have hoffer : JavaType.named t.shortName ∈ v.readSuperInterfaces.map .named := by
      rw [hread]
      exact List.mem_map_of_mem (List.mem_map_of_mem ht)
    obtain ⟨other, hother, hkey⟩ := exists_mem_foldl_addNew interfaceKey u.superInterfaces hoffer
    refine ⟨other, hother, hkey.trans ?_⟩
    rw [interfaceKey, interfaceKey, JavaType.shortName_named (hv.superInterfaces t ht)]
  · have hmem : text ∈ u.annotations ++ newAnnotations := hannotations ▸ htext
    rcases List.mem_append.1 hmem with hmem | hmem
    · exact .inl hmem
    · exact .inr (hoffered text hmem)
  · rcases htext with htext | htext
    · show text ∈ v.annotations.foldl (addNew id) u.annotations
      rw [hannotations]
      exact List.mem_append_left _ htext
    · obtain ⟨other, hother, rfl⟩ := exists_mem_foldl_addNew id u.annotations htext
      exact hother

theorem legible_mergedWith (hu : u.Legible) (hv : v.Legible) (hlegible : v.SuperclassLegible) :
    (u.mergedWith v texts).Legible := by
  have h := hu.keepHeader (hv.declared_legible hlegible)
  exact ⟨h.type, h.package, h.superclass, h.superInterfaces, h.noSuperclass, h.imports,
    h.annotations, h.javadoc⟩

theorem isComposed_mergedWith (hu : u.WellFormed) (hv : v.Legible) (hlegible : v.SuperclassLegible)
    (htexts : ∀ text ∈ texts, IsHandWritten text) : (u.mergedWith v texts).IsComposed := by
  obtain ⟨-, -, hsame⟩ := forall₂_handWritten htexts
  rw [mergedWith_eq hv hlegible, hsame]
  exact ⟨fun f hf => hu.fields f (List.mem_of_mem_filter hf),
    fun m hm => hu.methods m (List.mem_of_mem_filter hm), htexts⟩

theorem IsMerge.kind_eq (h : u.IsMerge v texts w) : w.kind = u.kind := by
  rw [h.same]

theorem IsMerge.type_eq (h : u.IsMerge v texts w) : w.type = u.type := by
  rw [h.same]

theorem IsMerge.superclass_eq (h : u.IsMerge v texts w) : w.superclass = u.superclass := by
  rw [h.same]

theorem IsMerge.retained_eq (h : u.IsMerge v texts w) : w.retained = texts := by
  rw [h.same]

/-- **A merged unit is merged with itself to the same unit.** -/
theorem mergedWith_again (hu : u.WellFormed) (hv : v.Legible) (hlegible : v.SuperclassLegible)
    (htype : v.type = u.type) (hagain : (u.mergedWith v texts).SuperclassLegible) :
    u.mergedWith (u.mergedWith v texts) texts = u.mergedWith v texts := by
  have hm : (u.mergedWith v texts).Legible := legible_mergedWith hu.legible hv hlegible
  have harray : (u.mergedWith v texts).IsArray ↔ v.IsArray := by
    rw [mergedWith_eq hv hlegible, IsArray, IsArray, htype]
  have hheader := keepHeader_again hu.legible hv hm hu.ascending hlegible hagain harray rfl rfl rfl
  show (u.keepHeader (u.mergedWith v texts).declared).keepMembers (membersOf texts) = _
  rw [hheader]
  rfl

/-! ## The superclass in both files -/

/-- **The superclass of a fresh unit can be read back**, with the interfaces
of the unit and those of the existing file behind it. -/
def SuperclassReadable (u v : JavaUnit) : Prop :=
  ∀ t ∈ u.superclass, ¬ u.IsArray ∧
    (u.superInterfaces ++ v.superInterfaces ≠ [] → ¬ "implements".toList <:+ t.shortName.toList)

theorem superInterfaces_mergedWith (hv : v.Legible) (hlegible : v.SuperclassLegible)
    (harray : ¬ v.IsArray) :
    (u.mergedWith v texts).superInterfaces = [] ↔ u.superInterfaces ++ v.superInterfaces = [] := by
  have hall : (u.mergedWith v texts).superInterfaces
      = (v.interfaceNames.map .named).foldl (addNew interfaceKey) u.superInterfaces := by
    rw [mergedWith_eq hv hlegible, (hv.readClauses_eq harray hlegible).2]
  rw [hall]
  constructor
  · intro hnone
    have hold : u.superInterfaces = [] := by
      obtain ⟨new, -, hnew, -⟩ :=
        exists_foldl_addNew interfaceKey u.superInterfaces (v.interfaceNames.map .named)
      exact (List.append_eq_nil_iff.1 (hnew.symm.trans hnone)).1
    have hadded : v.superInterfaces = [] := by
      rw [List.eq_nil_iff_forall_not_mem]
      intro t ht
      obtain ⟨other, hother, -⟩ := exists_mem_foldl_addNew interfaceKey u.superInterfaces
        (show JavaType.named t.shortName ∈ v.interfaceNames.map .named from
          List.mem_map_of_mem (List.mem_map_of_mem ht))
      rw [hnone] at hother
      exact absurd hother List.not_mem_nil
    rw [hold, hadded]
    rfl
  · intro hnone
    obtain ⟨hold, hadded⟩ := List.append_eq_nil_iff.1 hnone
    rw [interfaceNames, hold, hadded]
    rfl

/-- The superclass is legible in the existing file and in the merged one. -/
theorem superclassReadable_iff (hv : v.Legible) (htype : v.type = u.type)
    (hsuper : v.superclass = u.superclass)
    (texts : List String) :
    u.SuperclassReadable v ↔ v.SuperclassLegible ∧ (u.mergedWith v texts).SuperclassLegible := by
  have harray : v.IsArray ↔ u.IsArray := by rw [IsArray, IsArray, htype]
  constructor
  · intro h
    have hlegible : v.SuperclassLegible := by
      intro t ht
      obtain ⟨hnone, hend⟩ := h t (hsuper ▸ ht)
      exact ⟨fun hbrackets => hnone (harray.1 hbrackets), fun hne => hend (by simp [hne])⟩
    refine ⟨hlegible, fun t ht => ?_⟩
    have hsame : (u.mergedWith v texts).superclass = u.superclass ∧
        (u.mergedWith v texts).type = u.type := by
      rw [mergedWith_eq hv hlegible]
      exact ⟨rfl, rfl⟩
    obtain ⟨hnone, hend⟩ := h t (hsame.1 ▸ ht)
    refine ⟨by rwa [IsArray, hsame.2], fun hne => hend fun hempty => hne ?_⟩
    exact (superInterfaces_mergedWith hv hlegible fun hbrackets =>
      hnone (harray.1 hbrackets)).2 hempty
  · rintro ⟨hlegible, hmerged⟩ t ht
    have hsame : (u.mergedWith v texts).superclass = u.superclass := by
      rw [mergedWith_eq hv hlegible]
    obtain ⟨hnone, -⟩ := hlegible t (hsuper ▸ ht)
    obtain ⟨-, hend⟩ := hmerged t (hsame ▸ ht)
    refine ⟨fun hbrackets => hnone (harray.2 hbrackets), fun hne => hend fun hempty => hne ?_⟩
    exact (superInterfaces_mergedWith hv hlegible hnone).1 hempty

/-- What a merge into the file with the hand-written members gives. -/
theorem mergeInto_written_iff (hv : v.WellFormed) (hkind : v.kind = u.kind)
    (hsuper : v.superclass = u.superclass)
    (htexts : ∀ text ∈ texts, IsHandWritten text) (text : String) :
    u.mergeInto { v with retained := texts }.render = .ok text ↔
      v.SuperclassLegible ∧ (u.mergedWith v texts).render = text := by
  have h := hv.legible
  have hwritten : Legible { v with retained := texts } :=
    ⟨h.type, h.package, h.superclass, h.superInterfaces, h.noSuperclass, h.imports,
      h.annotations, h.javadoc⟩
  have hcomposed : IsComposed { v with retained := texts } := ⟨hv.fields, hv.methods, htexts⟩
  have hdeclared : u.keepHeader (declared { v with retained := texts }) = u.keepHeader v.declared :=
    rfl
  rw [mergeInto_eq_ok_iff hwritten hcomposed hkind hsuper, mergedWith, mergedWith, hdeclared]
  rfl

/-- What a merge into a merged file gives. -/
theorem mergeInto_merged_iff (hu : u.WellFormed) (hv : v.Legible) (hlegible : v.SuperclassLegible)
    (htype : v.type = u.type) (htexts : ∀ text ∈ texts, IsHandWritten text) (text : String) :
    u.mergeInto (u.mergedWith v texts).render = .ok text ↔
      (u.mergedWith v texts).SuperclassLegible ∧ (u.mergedWith v texts).render = text := by
  have hmerge := isMerge_mergedWith hv hlegible htype htexts
  rw [mergeInto_eq_ok_iff (legible_mergedWith hu.legible hv hlegible)
    (isComposed_mergedWith hu hv hlegible htexts) hmerge.kind_eq hmerge.superclass_eq,
    hmerge.retained_eq]
  refine and_congr_right fun hagain => ?_
  rw [mergedWith_again hu hv hlegible htype hagain]

/-- **Hand-written members survive exactly if the superclass can be read
back.** -/
theorem keepsMembers_iff (hu : u.WellFormed) (hv : v.WellFormed) (hkind : v.kind = u.kind)
    (htype : v.type = u.type) (hsuper : v.superclass = u.superclass)
    (htexts : ∀ text ∈ texts, IsHandWritten text) :
    u.KeepsMembers v texts ↔ u.SuperclassReadable v := by
  have hfirst := mergeInto_written_iff hv hkind hsuper htexts
  rw [superclassReadable_iff hv.legible htype hsuper texts]
  constructor
  · rintro ⟨merged, old, -, hok, -, -, hagain⟩
    obtain ⟨hlegible, hrender⟩ := (hfirst _).1 hok
    rw [← hrender] at hagain
    exact ⟨hlegible, ((mergeInto_merged_iff hu hv.legible hlegible htype htexts _).1 hagain).1⟩
  · rintro ⟨hlegible, hmerged⟩
    have hmerge := isMerge_mergedWith hv.legible hlegible htype htexts
    have hm : (u.mergedWith v texts).Legible := legible_mergedWith hu.legible hv.legible hlegible
    obtain ⟨members, hall, -, hmembers⟩ :=
      (isComposed_mergedWith hu hv.legible hlegible htexts).exists_members
    refine ⟨u.mergedWith v texts, _, hmerge, (hfirst _).2 ⟨hlegible, rfl⟩, hm.ofSource?_render, ?_,
      (mergeInto_merged_iff hu hv.legible hlegible htype htexts _).2 ⟨hmerged, rfl⟩⟩
    rw [ofBody_declared hall, hmembers, hmerge.type_eq, hmerge.retained_eq]

end

/-! ## Two classes with a superclass -/

/-- A class with one generated field, a superclass and an interface. -/
def derivedOrders (superclass : String) : JavaUnit :=
  { kind := .class
    type := .named "a.Orders"
    superclass := some (.named superclass)
    superInterfaces := [.named "c.Stored"]
    imports := ["c.Stored"]
    annotations := ["@Table(\"orders\")"]
    fields :=
    [{ name := "code", type := .named "java.lang.String", javadoc := ["@mapper.generated"] }] }

theorem isPlain_two_names {first second : List Char} (hfirst : IsIdentifier first)
    (hsecond : IsIdentifier second)
    {name : String} (hname : name.toList = first ++ '.' :: second) :
    (JavaType.named name).IsPlain :=
  ⟨name, ⟨first ++ '.' :: second, 0, (IsDotted.identifier hfirst).dot hsecond, by
    simp [hname, brackets]⟩, .inl rfl⟩

theorem wellFormed_derivedOrders : (derivedOrders "b.Tool").WellFormed where
  type := isPlain_two_names ⟨'a', [], rfl, by decide, by decide⟩
    ⟨'O', "rders".toList, rfl, by decide, by decide⟩ rfl
  superclass := by
    rintro t ⟨⟩
    exact isPlain_two_names ⟨'b', [], rfl, by decide, by decide⟩
      ⟨'T', "ool".toList, rfl, by decide, by decide⟩ rfl
  superInterfaces := by
    intro t ht
    obtain rfl := List.mem_singleton.1 ht
    exact isPlain_two_names ⟨'c', [], rfl, by decide, by decide⟩
      ⟨'S', "tored".toList, rfl, by decide, by decide⟩ rfl
  noSuperclass := fun hkind => absurd hkind (by decide)
  imports := by
    intro name hname
    obtain rfl := List.mem_singleton.1 hname
    exact .inl ⟨_, (IsDotted.identifier ⟨'c', [], rfl, by decide, by decide⟩).dot
      ⟨'S', "tored".toList, rfl, by decide, by decide⟩, .inl rfl⟩
  ascending := List.pairwise_singleton _ _
  annotations := by
    intro text htext
    obtain rfl := List.mem_singleton.1 htext
    refine ⟨"Table".toList, '(' :: ("\"      \"".toList ++ [')']), by decide, ?_, .inr ?_⟩
    · exact isMarkName_of_isIdentifier ⟨'T', "able".toList, rfl, by decide, by decide⟩ (by decide)
        fun kind => by cases kind <;> decide
    · refine ⟨[], "\"      \"".toList, rfl, by decide, by decide, by decide,
        keywordFree_of_forall ?_⟩
      intro c hc kind
      revert c
      cases kind <;> decide
  javadoc := fun line hline => absurd hline List.not_mem_nil
  fields := by
    intro f hf
    obtain rfl := List.mem_singleton.1 hf
    refine ⟨fun line hline => ?_, ⟨_, List.mem_singleton_self _, by decide⟩, ?_⟩
    · obtain rfl := List.mem_singleton.1 hline
      exact not_infix_of_not_mem (by decide)
    · exact ⟨⟨some ⟨"code", none⟩, true,
        "/**\n     * @mapper.generated\n     */\n    private String code;"⟩, by
          decide +kernel, by decide +kernel⟩
  methods := fun m hm => absurd hm List.not_mem_nil

/-- A method written by hand survives. -/
theorem keepsMembers_normalizedCode :
    IsHandWritten "public String normalizedCode() \x7b\n        return code.trim();\n    \x7d" ∧
      (derivedOrders "b.Tool").KeepsMembers (derivedOrders "b.Tool")
        ["public String normalizedCode() \x7b\n        return code.trim();\n    \x7d"] := by
  have hmethod : IsHandWritten
      "public String normalizedCode() \x7b\n        return code.trim();\n    \x7d" :=
    ⟨⟨some ⟨"normalizedCode", some 0⟩, false,
      "public String normalizedCode() \x7b\n        return code.trim();\n    \x7d"⟩,
      by decide +kernel, rfl, rfl⟩
  have hreadable : (derivedOrders "b.Tool").SuperclassReadable (derivedOrders "b.Tool") := by
    rintro t ⟨⟩
    refine ⟨?_, fun _ hend => absurd hend.length_le (by decide)⟩
    show (JavaType.named "a.Orders").shortName.toList.getLast? ≠ some ']'
    decide
  refine ⟨hmethod, (keepsMembers_iff wellFormed_derivedOrders wellFormed_derivedOrders rfl
    rfl rfl ?_).2 hreadable⟩
  simpa using hmethod

/-- **A class whose superclass is called `Toolimplements` cannot be merged
into its own text.** -/
theorem mergeInto_toolimplements :
    (derivedOrders "b.Toolimplements").mergeInto (derivedOrders "b.Toolimplements").render
      = .error (.superclass (some "Tool") (some "Toolimplements")) := by
  decide +kernel

end JavaUnit

end TableMapper
