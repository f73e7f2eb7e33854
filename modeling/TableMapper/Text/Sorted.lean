/-!
# Sorted sets of texts

A set of texts as an ascending list without repetitions, in the order of
code points.
-/

namespace TableMapper.Text

/-- A text added to an ascending list, unless it is there. -/
def insertSorted (s : String) : List String → List String
  | [] => [s]
  | t :: rest =>
    if s < t then s :: t :: rest
    else if s = t then t :: rest
    else t :: insertSorted s rest

/-- The ascending list of some texts. -/
def sortedSet (texts : List String) : List String :=
  texts.foldl (fun set s => insertSorted s set) []

@[simp] theorem mem_insertSorted {a s : String} {set : List String} :
    a ∈ insertSorted s set ↔ a = s ∨ a ∈ set := by
  induction set with
  | nil => simp [insertSorted]
  | cons t rest ih =>
    rw [insertSorted]
    split
    · simp
    · split
      · next h => subst h; simp
      · simp only [List.mem_cons, ih]
        constructor
        · rintro (h | h | h) <;> simp [h]
        · rintro (h | h | h) <;> simp [h]

end TableMapper.Text
