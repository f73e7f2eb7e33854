import TableMapper.Proofs.Artifact.Assembly
import TableMapper.Proofs.Merge.KeptContent

/-!
# Mapper documents are well named

All names in the fragments of a table are fixed, and what comes from the
table stands in values and in character data, where it is escaped. So **the
mapper document of every table is a generated one**
(`generated_document`), whatever its tables and columns are called.
-/

namespace TableMapper

open Markup (Element Node IsName)

instance (name : String) : Decidable (IsName name) :=
  inferInstanceAs (Decidable (_ ∧ _))

namespace Markup.Element

/-- **An element without raw markup**, all names in which are names. -/
structure WellNamed (e : Element) : Prop where
  name : IsName e.name
  attributes : ∀ a ∈ e.attributes, IsName a.1
  children : ∀ n ∈ e.children, n.WellNamed

variable {e inner : Element} {name : String}

theorem WellNamed.toNode (h : e.WellNamed) : e.toNode.WellNamed :=
  .element h.name h.attributes h.children

theorem wellNamed_named (h : IsName name) : (Element.named name).WellNamed :=
  ⟨h, List.forall_mem_nil _, List.forall_mem_nil _⟩

theorem WellNamed.attr (h : e.WellNamed) (hname : IsName name) (value : String) :
    (e.attr name value).WellNamed :=
  ⟨h.name, List.forall_mem_append.2 ⟨h.attributes, List.forall_mem_singleton.2 hname⟩, h.children⟩

theorem WellNamed.child (h : e.WellNamed) (hinner : inner.WellNamed) : (e.child inner).WellNamed :=
  ⟨h.name, h.attributes,
    List.forall_mem_append.2 ⟨h.children, List.forall_mem_singleton.2 hinner.toNode⟩⟩

theorem WellNamed.text (h : e.WellNamed) (s : String) : (e.text s).WellNamed :=
  ⟨h.name, h.attributes,
    List.forall_mem_append.2 ⟨h.children, List.forall_mem_singleton.2 (.text s)⟩⟩

end Markup.Element

namespace MapperDocument

open Markup.Element

theorem isName_of_mem_elementNames : ∀ name ∈ elementNames, IsName name := by decide

theorem isName_of_mem_attributeNames : ∀ name ∈ attributeNames, IsName name := by decide

theorem wellNamed_inclusion (id : FragmentId) : (Fragments.inclusion id).WellNamed :=
  (wellNamed_named (by decide)).attr (by decide) _

/-- **What is assembled is well named**: the names that it is given are fixed. -/
theorem Assembled.wellNamed {links : FragmentId → Prop} {e : Element} (h : Assembled links e) :
    e.WellNamed := by
  induction h with
  | named hname => exact wellNamed_named (isName_of_mem_elementNames _ hname)
  | attr _ hname value ih => exact ih.attr (isName_of_mem_attributeNames _ hname) value
  | resultMap _ _ ih => exact ih.attr (by decide) _
  | text _ s ih => exact ih.text s
  | child _ _ ih ihinner => exact ih.child ihinner
  | inclusion _ _ ih => exact ih.child (wellNamed_inclusion _)
  | leading _ _ ih ihinner =>
    exact ⟨ih.name, ih.attributes, List.forall_mem_cons.2 ⟨ihinner.toNode, ih.children⟩⟩

/-- **The fragments of a table are well named.** -/
theorem wellNamed_of_fragment? {table : TableModel} {id : FragmentId} {e : Element}
    (h : fragment? table id = some e) : e.WellNamed := by
  have hassembled : Assembled (fun _ => True) e :=
    assembled_of_fragment? h (fun _ _ => trivial) fun _ => trivial
  exact hassembled.wellNamed

/-- **The mapper document of a table is a generated one.** -/
theorem generated_document (table : TableModel) : (document table).Generated where
  root := by
    show IsName "mapper"
    decide
  attributes := List.forall_mem_singleton.2 (show IsName "namespace" by decide)
  publicId := by
    rintro id ⟨⟩
    decide
  systemId := by
    rintro id ⟨⟩
    decide
  named := by
    intro n hn
    obtain ⟨e, he, rfl⟩ := List.mem_map.1 hn
    obtain ⟨id, -, hid⟩ := List.mem_filterMap.1 he
    exact (wellNamed_of_fragment? hid).toNode
  identified := by
    intro n hn
    obtain ⟨e, he, rfl⟩ := List.mem_map.1 hn
    obtain ⟨id, -, hid⟩ := List.mem_filterMap.1 he
    exact ⟨e, id.name, rfl, id?_of_fragment? hid⟩

end MapperDocument

end TableMapper
