/-! Stable sorting by insertion. Elements are taken from the left, and each one moves past the
elements that it stands strictly before, beginning with the last. Equal elements therefore keep
their order. -/

namespace RecordQuery

/-- Insert an element into a list that is given from its last element on. -/
def insertFromEnd {α : Type} (before : α → α → Bool) (x : α) : List α → List α
  | [] => [x]
  | y :: ys => if before x y then y :: insertFromEnd before x ys else x :: y :: ys

/-- Sort by a comparison. Stable sorts agree where the comparison puts all elements in one order,
some of them as equal. Where it does not, a sort may leave any order, or fail; here there is an
outcome all the same, and what is said of it then is said of insertion only. -/
def stableSort {α : Type} (before : α → α → Bool) (xs : List α) : List α :=
  (xs.foldl (fun sorted x => insertFromEnd before x sorted) []).reverse

theorem insertFromEnd_perm {α : Type} (before : α → α → Bool) (x : α) (xs : List α) :
    (insertFromEnd before x xs).Perm (x :: xs) := by
  induction xs with
  | nil => exact .refl _
  | cons y ys ih =>
    rw [insertFromEnd]
    split
    · exact (ih.cons y).trans (.swap x y ys)
    · exact .refl _

/-- Sorting keeps every element. -/
theorem stableSort_perm {α : Type} (before : α → α → Bool) (xs : List α) :
    (stableSort before xs).Perm xs := by
  have fold : ∀ (xs sorted : List α),
      (xs.foldl (fun sorted x => insertFromEnd before x sorted) sorted).Perm (sorted ++ xs) := by
    intro xs
    induction xs with
    | nil => simp
    | cons x xs ih =>
      intro sorted
      refine (ih _).trans (((insertFromEnd_perm before x sorted).append_right xs).trans ?_)
      exact List.perm_middle.symm
  exact (List.reverse_perm _).trans (by simpa using fold xs [])

end RecordQuery
