import TableMapper.Proofs.Merge.HandWritten
import TableMapper.Proofs.Merge.KeptContent

/-!
# Merging into one's own text

A generated document, merged into the text it was written as, is written as
this text again (`Document.Generated.mergeInto_render`). So is **a well-formed
unit, provided that its superclass can be read back**, and if it cannot the
merge fails (`WellFormed.mergeInto_render_iff`).

What is merged need not have written the text. **A document or unit replaces
another one with the same heading, and nothing of the other one is left**
(`Document.Generated.mergeInto_render_of_sameRoot`,
`WellFormed.mergeInto_render_of_sameHeading`), since all that was generated is
generated anew.
-/

namespace TableMapper

namespace Markup.Document

/-- **Two documents with the same root**: its name, its namespace and the
`id`s of its children are the same. -/
structure SameRoot (fresh d : Document) : Prop where
  name : d.root.name = fresh.root.name
  space : d.root.attribute? "namespace" = fresh.root.attribute? "namespace"
  ids : d.ids = fresh.ids

variable {d fresh : Document}

theorem SameRoot.refl (d : Document) : d.SameRoot d :=
  ⟨rfl, rfl, rfl⟩

/-- **A document replaces a generated one with the same root.** -/
theorem Generated.mergeInto_render_of_sameRoot (h : d.Generated) (hsame : fresh.SameRoot d) :
    fresh.mergeInto d.render = .ok fresh.render := by
  have hown : ∀ other : Document, other.withChildren [] = other := fun other => by
    rw [withChildren, withRaw]
    simp
  have hcheckRoot : fresh.checkRoot = d.checkRoot := by
    funext root
    simp only [checkRoot, hsame.name, hsame.space]
  have hunreplaced : ∀ children, fresh.unreplaced children = d.unreplaced children :=
    fun children => by
    have hreplaces : fresh.replaces = d.replaces := by
      funext child
      rw [replaces, replaces, hsame.ids]
    rw [unreplaced, unreplaced, hreplaces]
  obtain ⟨o, ho, hcheck, hne, hchildren⟩ := h.outline_withChildren (List.forall_mem_nil _)
  rw [show d.unreplaced [] = [] from rfl, hown] at ho
  refine mergeInto_eq_ok_iff.2 ⟨o, ho, by rwa [hcheckRoot], hne, ?_⟩
  rw [hunreplaced, hchildren]
  show fresh.render = (fresh.withChildren []).render
  rw [hown]

/-- **A generated document is merged into its own text without change.** -/
theorem Generated.mergeInto_render (h : d.Generated) : d.mergeInto d.render = .ok d.render :=
  h.mergeInto_render_of_sameRoot (.refl d)

end Markup.Document

namespace JavaUnit

/-- **Two units with the same heading**: what they are, import, extend and
implement is the same, and so are their annotations. -/
structure SameHeading (u v : JavaUnit) : Prop where
  kind : v.kind = u.kind
  superclass : v.superclass = u.superclass
  imports : v.imports = u.imports
  superInterfaces : v.superInterfaces = u.superInterfaces
  annotations : v.annotations = u.annotations

variable {u v : JavaUnit} {text : String}

theorem SameHeading.refl (u : JavaUnit) : u.SameHeading u :=
  ⟨rfl, rfl, rfl, rfl, rfl⟩

/-- Nothing is added to a unit from the text of one with the same heading. -/
theorem WellFormed.mergedWith_eq_self (hu : u.WellFormed) (hv : v.WellFormed)
    (hsame : u.SameHeading v)
    (hretained : u.retained = []) (hlegible : v.SuperclassLegible) : u.mergedWith v [] = u := by
  have himports : (v.imports.filter Source.isReadable).foldl
      (fun set name => Text.insertSorted name set) u.imports
      = u.imports := by
    rw [hsame.imports]
    show _ = [].foldl (fun set name => Text.insertSorted name set) u.imports
    refine Text.foldl_insertSorted_congr hu.ascending fun name => ?_
    rw [List.mem_filter]
    exact ⟨fun hname => .inr (hname.elim (·.1) id),
      fun hname => .inr (hname.resolve_left List.not_mem_nil)⟩
  have hinterfaces : (v.readSuperInterfaces.map .named).foldl
      (addNew interfaceKey) u.superInterfaces
      = u.superInterfaces := by
    refine foldl_addNew_of_forall fun t ht => ?_
    obtain ⟨name, hname, rfl⟩ := List.mem_map.1 ht
    rcases hv.legible.readSuperInterfaces_cases hlegible with ⟨-, hread⟩ | ⟨-, hread⟩
    · rw [hread] at hname
      exact absurd hname List.not_mem_nil
    · rw [hread] at hname
      obtain ⟨other, hother, rfl⟩ := List.mem_map.1 hname
      refine ⟨other, hsame.superInterfaces ▸ hother, ?_⟩
      rw [interfaceKey, interfaceKey,
        JavaType.shortName_named (hv.legible.superInterfaces other hother)]
  have hannotations : v.annotations.foldl (addNew id) u.annotations = u.annotations := by
    rw [hsame.annotations]
    exact foldl_addNew_of_forall fun mark hmark => ⟨mark, hmark, rfl⟩
  have hfields : u.fields.filter (fun f => !(keysOf []).contains f.key) = u.fields :=
    List.filter_eq_self.2 fun _ _ => rfl
  have hmethods : u.methods.filter (fun m => !(keysOf []).contains (m.key u.type.shortName))
      = u.methods :=
    List.filter_eq_self.2 fun _ _ => rfl
  rw [mergedWith_eq hv.legible hlegible, himports, hinterfaces, hannotations, hfields, hmethods]
  show { u with retained := [] } = u
  rw [← hretained]

/-- **A unit replaces one with the same heading.** -/
theorem WellFormed.mergeInto_render_of_sameHeading (hu : u.WellFormed) (hv : v.WellFormed)
    (hsame : u.SameHeading v)
    (hretained : u.retained = []) (hretained' : v.retained = []) (hlegible : v.SuperclassLegible) :
    u.mergeInto v.render = .ok u.render := by
  have hcomposed : v.IsComposed := ⟨hv.fields, hv.methods, by simp [hretained']⟩
  rw [mergeInto_eq_ok_iff hv.legible hcomposed hsame.kind hsame.superclass, hretained',
    hu.mergedWith_eq_self hv hsame hretained hlegible]
  exact ⟨hlegible, rfl⟩

/-- **When a unit is merged into its own text**, and that nothing changes
then. -/
theorem WellFormed.mergeInto_render_iff (h : u.WellFormed) (hretained : u.retained = []) :
    u.mergeInto u.render = .ok text ↔ u.SuperclassLegible ∧ text = u.render := by
  have hcomposed : u.IsComposed := ⟨h.fields, h.methods, by simp [hretained]⟩
  rw [mergeInto_eq_ok_iff h.legible hcomposed rfl rfl, hretained]
  refine and_congr_right fun hlegible => ?_
  rw [h.mergedWith_eq_self h (.refl u) hretained hlegible]
  exact eq_comm

end JavaUnit

end TableMapper
