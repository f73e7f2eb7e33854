import Mathlib.Data.List.Sort
import Mathlib.Data.String.Basic
import TableMapper.Text.Sorted

/-!
# Sorted sets of texts

An ascending list of texts stays ascending when texts are added to it, so
what it is in the end depends on nothing but which texts were added
(`foldl_insertSorted_congr`).
-/

namespace TableMapper.Text

variable {s : String} {set names others : List String}

/-- Adding a text keeps the order. -/
theorem pairwise_insertSorted (h : set.Pairwise (· < ·)) :
    (insertSorted s set).Pairwise (· < ·) := by
  induction set with
  | nil => exact List.pairwise_singleton _ _
  | cons t rest ih =>
    obtain ⟨ht, hrest⟩ := List.pairwise_cons.1 h
    rw [insertSorted]
    split
    next hlt =>
      refine List.pairwise_cons.2 ⟨fun a ha => ?_, h⟩
      rcases List.mem_cons.1 ha with rfl | ha
      · exact hlt
      · exact lt_trans hlt (ht a ha)
    next hlt =>
      split
      · exact h
      next hne =>
        refine List.pairwise_cons.2 ⟨fun a ha => ?_, ih hrest⟩
        rcases mem_insertSorted.1 ha with rfl | ha
        · exact lt_of_le_of_ne (not_lt.1 hlt) fun heq => hne heq.symm
        · exact ht a ha

theorem pairwise_foldl_insertSorted (h : set.Pairwise (· < ·)) (names : List String) :
    (names.foldl (fun set name => insertSorted name set) set).Pairwise (· < ·) := by
  induction names generalizing set with
  | nil => exact h
  | cons name names ih => exact ih (pairwise_insertSorted h)

theorem mem_foldl_insertSorted {a : String} :
    a ∈ names.foldl (fun set name => insertSorted name set) set ↔ a ∈ names ∨ a ∈ set := by
  induction names generalizing set with
  | nil => simp
  | cons name names ih =>
    rw [List.foldl_cons, ih, mem_insertSorted, List.mem_cons]
    tauto

/-- **Which texts are added is all that counts.** -/
theorem foldl_insertSorted_congr (h : set.Pairwise (· < ·))
    (hmem : ∀ a, a ∈ names ∨ a ∈ set ↔ a ∈ others ∨ a ∈ set) :
    names.foldl (fun set name => insertSorted name set) set
      = others.foldl (fun set name => insertSorted name set) set := by
  refine (pairwise_foldl_insertSorted h names).eq_of_mem_iff
    (pairwise_foldl_insertSorted h others) ?_
  intro a
  rw [mem_foldl_insertSorted, mem_foldl_insertSorted]
  exact hmem a

end TableMapper.Text
