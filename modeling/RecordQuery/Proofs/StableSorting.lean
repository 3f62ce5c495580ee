import Mathlib.Data.List.Forall2
import Mathlib.Data.List.Induction
import Mathlib.Data.List.Perm.Basic
import RecordQuery.StableSort

/-! Stable sorting by a comparison that is a preorder on the elements of a list and may be anything
elsewhere. The sorted list holds the same elements, none of them behind one that it stands strictly
before, and those that tie in the order they had. No other list does so, which is why sorting a part
of a list is the same as taking that part of the sorted list. -/

namespace RecordQuery

variable {α : Type}

/-- A comparison that answers the other way round when it is asked so, and is transitive on the
elements of a list. -/
structure Orders (cmp : α → α → Ordering) (xs : List α) : Prop where
  swap : ∀ a b, cmp b a = (cmp a b).swap
  trans : ∀ a ∈ xs, ∀ b ∈ xs, ∀ c ∈ xs, cmp a b ≠ .gt → cmp b c ≠ .gt → cmp a c ≠ .gt

/-- A list of the elements of `xs` in which none is followed by one that stands strictly before it,
and those that tie with one another are in the order they have in `xs`. -/
structure Arranges (cmp : α → α → Ordering) (xs ys : List α) : Prop where
  perm : ys.Perm xs
  ordered : ys.Pairwise fun a b => cmp b a ≠ .lt
  stable : ∀ a ∈ xs, (ys.filter fun b => cmp a b == .eq) = xs.filter fun b => cmp a b == .eq

namespace Orders

variable {cmp cmp' : α → α → Ordering} {xs ys : List α}

theorem mono (h : Orders cmp xs) (hsub : ys ⊆ xs) : Orders cmp ys :=
  ⟨h.swap, fun a ha b hb c hc => h.trans a (hsub ha) b (hsub hb) c (hsub hc)⟩

theorem ne_gt_iff (h : Orders cmp xs) {a b : α} : cmp a b ≠ .gt ↔ cmp b a ≠ .lt := by
  rw [h.swap a b]
  cases cmp a b <;> simp

theorem eq_comm (h : Orders cmp xs) {a b : α} : cmp a b = .eq ↔ cmp b a = .eq := by
  rw [h.swap a b]
  cases cmp a b <;> simp

theorem eq_of_ne_gt (h : Orders cmp xs) {a b : α} (hab : cmp a b ≠ .gt) (hba : cmp b a ≠ .gt) :
    cmp a b = .eq := by
  rw [h.ne_gt_iff] at hba
  cases hcmp : cmp a b with
  | eq => rfl
  | lt => exact absurd hcmp hba
  | gt => exact absurd hcmp hab

theorem refl (h : Orders cmp xs) (a : α) : cmp a a = .eq := by
  have hself := h.swap a a
  cases hcmp : cmp a a with
  | eq => rfl
  | lt | gt => exact absurd hself (by simp [hcmp])

/-- What ties with one element ties with another that does. -/
theorem eq_trans (h : Orders cmp xs) {a b c : α} (ha : a ∈ xs) (hb : b ∈ xs) (hc : c ∈ xs)
    (hab : cmp a b = .eq) (hac : cmp a c = .eq) : cmp b c = .eq := by
  have hba := h.eq_comm.1 hab
  have hca := h.eq_comm.1 hac
  exact h.eq_of_ne_gt (h.trans b hb a ha c hc (by simp [hba]) (by simp [hac]))
    (h.trans c hc a ha b hb (by simp [hca]) (by simp [hab]))

/-- The opposite order. -/
theorem flip (h : Orders cmp xs) : Orders (fun a b => (cmp a b).swap) xs := by
  refine ⟨fun a b => by rw [h.swap a b], fun a ha b hb c hc hab hbc => ?_⟩
  simp only [← h.swap] at hab hbc ⊢
  exact h.trans c hc b hb a ha hbc hab

/-- One order, and another where it ties. -/
theorem lex (h : Orders cmp xs) (h' : Orders cmp' xs) :
    Orders (fun a b => (cmp a b).then (cmp' a b)) xs := by
  refine ⟨fun a b => by rw [h.swap a b, h'.swap a b, Ordering.swap_then], ?_⟩
  intro a ha b hb c hc hab hbc hac
  rw [Ne, Ordering.then_eq_gt, not_or] at hab hbc
  have hle := h.trans a ha b hb c hc hab.1 hbc.1
  obtain hgt | ⟨htie, hgt⟩ := Ordering.then_eq_gt.1 hac
  · exact hle hgt
  · -- all three tie in the first order, so that the second decides on them
    have hca : cmp c a ≠ .gt := by simp [h.eq_comm.1 htie]
    have habeq := h.eq_of_ne_gt hab.1 (h.trans b hb c hc a ha hbc.1 hca)
    have hbceq := h.eq_of_ne_gt hbc.1 (h.trans c hc a ha b hb hca hab.1)
    exact h'.trans a ha b hb c hc (fun hgt => hab.2 ⟨habeq, hgt⟩)
      (fun hgt => hbc.2 ⟨hbceq, hgt⟩) hgt

end Orders

/-! ### Insertion -/

/-- An element that is inserted goes in front of its ties, seen from the end. -/
theorem filter_insertFromEnd {before : α → α → Bool} {p : α → Bool} {x : α} {ys : List α}
    (h : ∀ y ∈ ys, p x = true → p y = true → before x y = false) :
    (insertFromEnd before x ys).filter p = (x :: ys).filter p := by
  induction ys with
  | nil => rfl
  | cons y ys ih =>
    rw [insertFromEnd]
    split
    · rename_i hbefore
      rw [List.filter_cons, ih fun z hz => h z (List.mem_cons_of_mem y hz)]
      cases hx : p x with
      | false => simp [List.filter_cons, hx]
      | true =>
        have hy : p y = false := by
          by_contra hy
          rw [h y (by simp) hx (by simpa using hy)] at hbefore
          exact absurd hbefore (by simp)
        simp [hx, hy]
    · rfl

theorem pairwise_insertFromEnd {cmp : α → α → Ordering} {x : α} {ys : List α}
    (h : Orders cmp (x :: ys)) (hys : ys.Pairwise fun a b => cmp a b ≠ .lt) :
    (insertFromEnd (fun a b => cmp a b == .lt) x ys).Pairwise fun a b => cmp a b ≠ .lt := by
  induction ys with
  | nil => exact List.pairwise_singleton _ _
  | cons y ys ih =>
    obtain ⟨hy, hys⟩ := List.pairwise_cons.1 hys
    rw [insertFromEnd]
    split
    · rename_i hlt
      rw [beq_iff_eq] at hlt
      refine List.pairwise_cons.2 ⟨fun z hz => ?_, ih (h.mono (by simp)) hys⟩
      rcases List.mem_cons.1 ((insertFromEnd_perm _ x ys).mem_iff.1 hz) with rfl | hz
      · rw [h.swap z y, hlt]
        decide
      · exact hy z hz
    · rename_i hxy
      rw [beq_iff_eq] at hxy
      refine List.pairwise_cons.2 ⟨fun z hz => ?_, List.pairwise_cons.2 ⟨hy, hys⟩⟩
      rcases List.mem_cons.1 hz with rfl | hz'
      · exact hxy
      · have hzy := h.ne_gt_iff.2 (hy z hz')
        have hyx := h.ne_gt_iff.2 hxy
        exact h.ne_gt_iff.1 (h.trans z (by simp [hz']) y (by simp) x (by simp) hzy hyx)

theorem stableSort_append_singleton (before : α → α → Bool) (xs : List α) (x : α) :
    stableSort before (xs ++ [x]) =
      (insertFromEnd before x (stableSort before xs).reverse).reverse := by
  simp [stableSort]

/-- Elements of which none stands before another stay in their order, whatever the rest is. -/
theorem filter_stableSort {before : α → α → Bool} {p : α → Bool} {xs : List α}
    (h : ∀ x ∈ xs, ∀ y ∈ xs, p x = true → p y = true → before x y = false) :
    (stableSort before xs).filter p = xs.filter p := by
  induction xs using List.reverseRecOn with
  | nil => rfl
  | append_singleton xs x ih =>
    have hxs : ∀ y ∈ xs, y ∈ xs ++ [x] := fun y => List.mem_append_left [x]
    have hinsert : ∀ y ∈ (stableSort before xs).reverse,
        p x = true → p y = true → before x y = false := fun y hy =>
      h x (by simp) y (hxs y ((stableSort_perm before xs).mem_iff.1 (List.mem_reverse.1 hy)))
    rw [stableSort_append_singleton, List.filter_reverse, filter_insertFromEnd hinsert,
      ← List.filter_reverse, List.reverse_cons, List.reverse_reverse, List.filter_append,
      ih fun y hy z hz => h y (hxs y hy) z (hxs z hz), List.filter_append]

theorem pairwise_stableSort {cmp : α → α → Ordering} {xs : List α} (h : Orders cmp xs) :
    (stableSort (fun a b => cmp a b == .lt) xs).Pairwise fun a b => cmp b a ≠ .lt := by
  induction xs using List.reverseRecOn with
  | nil => exact List.Pairwise.nil
  | append_singleton xs x ih =>
    have hmem : x :: (stableSort (fun a b => cmp a b == .lt) xs).reverse ⊆ xs ++ [x] := by
      intro a ha
      simpa [(stableSort_perm _ xs).mem_iff, or_comm] using ha
    have hxs := ih (h.mono (List.subset_append_left xs [x]))
    rw [stableSort_append_singleton, List.pairwise_reverse]
    exact pairwise_insertFromEnd (h.mono hmem) (List.pairwise_reverse.2 hxs)

/-- Sorting arranges a list that the comparison orders. -/
theorem arranges_stableSort {cmp : α → α → Ordering} {xs : List α} (h : Orders cmp xs) :
    Arranges cmp xs (stableSort (fun a b => cmp a b == .lt) xs) := by
  refine ⟨stableSort_perm _ xs, pairwise_stableSort h, fun a ha => filter_stableSort ?_⟩
  intro x hx y hy hax hay
  rw [beq_iff_eq] at hax hay
  simp [h.eq_trans ha hx hy hax hay]

/-! ### There is only one arrangement -/

/-- Two lists of the same elements are equal if both are in order and agree on what ties. The first
elements stand before neither one another, so they tie. -/
theorem eq_of_ordered {cmp : α → α → Ordering} {xs ys zs : List α} (h : Orders cmp xs)
    (hperm : ys.Perm zs) (hys : ys.Pairwise fun a b => cmp b a ≠ .lt)
    (hzs : zs.Pairwise fun a b => cmp b a ≠ .lt)
    (hties : ∀ a ∈ ys, (ys.filter fun b => cmp a b == .eq) = zs.filter fun b => cmp a b == .eq) :
    ys = zs := by
  induction ys generalizing zs with
  | nil => exact hperm.nil_eq
  | cons y ys ih =>
    cases zs with
    | nil => exact absurd hperm.length_eq (by simp)
    | cons z zs =>
      obtain ⟨hy, hys'⟩ := List.pairwise_cons.1 hys
      obtain ⟨hz, hzs'⟩ := List.pairwise_cons.1 hzs
      have hyz : cmp y z ≠ .gt := by
        rw [h.ne_gt_iff]
        rcases List.mem_cons.1 (hperm.mem_iff.2 List.mem_cons_self) with rfl | hmem
        · simp [h.refl]
        · exact hy z hmem
      have hzy : cmp z y ≠ .gt := by
        rw [h.ne_gt_iff]
        rcases List.mem_cons.1 (hperm.mem_iff.1 List.mem_cons_self) with rfl | hmem
        · simp [h.refl]
        · exact hz y hmem
      have htie := h.eq_of_ne_gt hyz hzy
      have hfirst := hties y (by simp)
      rw [List.filter_cons_of_pos (by simp [h.refl]), List.filter_cons_of_pos (by simp [htie])]
        at hfirst
      obtain rfl := (List.cons.inj hfirst).1
      refine congrArg _ (ih hperm.cons_inv hys' hzs' fun a ha => ?_)
      have htail := hties a (List.mem_cons_of_mem y ha)
      rw [List.filter_cons, List.filter_cons] at htail
      split at htail
      · exact (List.cons.inj htail).2
      · exact htail

namespace Arranges

variable {cmp : α → α → Ordering} {xs ys zs : List α}

theorem unique (h : Orders cmp xs) (hys : Arranges cmp xs ys) (hzs : Arranges cmp xs zs) :
    ys = zs := by
  refine eq_of_ordered h (hys.perm.trans hzs.perm.symm) hys.ordered hzs.ordered fun a ha => ?_
  have ha := hys.perm.mem_iff.1 ha
  rw [hys.stable a ha, hzs.stable a ha]

/-- A part of an arranged list is arranged. -/
theorem filter (h : Arranges cmp xs ys) (p : α → Bool) :
    Arranges cmp (xs.filter p) (ys.filter p) := by
  refine ⟨h.perm.filter p, h.ordered.filter p, fun a ha => ?_⟩
  have hstable := h.stable a (List.mem_filter.1 ha).1
  rw [List.filter_comm, hstable, List.filter_comm]

end Arranges

/-- A sort is the only arrangement. -/
theorem arranges_iff {cmp : α → α → Ordering} {xs ys : List α} (h : Orders cmp xs) :
    Arranges cmp xs ys ↔ ys = stableSort (fun a b => cmp a b == .lt) xs := by
  constructor
  · intro hys
    exact hys.unique h (arranges_stableSort h)
  · rintro rfl
    exact arranges_stableSort h

/-- Sorting and taking a part may be done in either order. -/
theorem stableSort_filter {cmp : α → α → Ordering} {xs : List α} (h : Orders cmp xs)
    (p : α → Bool) : stableSort (fun a b => cmp a b == .lt) (xs.filter p) =
      (stableSort (fun a b => cmp a b == .lt) xs).filter p := by
  have hpart : Orders cmp (xs.filter p) := h.mono (List.filter_subset_self xs)
  exact ((arranges_iff hpart).1 ((arranges_stableSort h).filter p)).symm

/-! ### Sorting related lists -/

section

variable {β : Type} {R : α → β → Prop} {before : α → α → Bool} {before' : β → β → Bool}
  {xs : List α} {ys : List β}

theorem forall₂_insertFromEnd (hbefore : ∀ a b, R a b → ∀ a' b', R a' b' →
    before a a' = before' b b') {x : α} {y : β} (hxy : R x y) (h : List.Forall₂ R xs ys) :
    List.Forall₂ R (insertFromEnd before x xs) (insertFromEnd before' y ys) := by
  induction h with
  | nil => exact .cons hxy .nil
  | @cons a b xs ys hab h ih =>
    rw [insertFromEnd, insertFromEnd, hbefore x y hxy a b hab]
    split
    · exact .cons hab ih
    · exact .cons hxy (.cons hab h)

/-- Elements that are related to one another and compare alike end up in the same places. -/
theorem forall₂_stableSort (hbefore : ∀ a b, R a b → ∀ a' b', R a' b' →
    before a a' = before' b b') (h : List.Forall₂ R xs ys) :
    List.Forall₂ R (stableSort before xs) (stableSort before' ys) := by
  refine List.forall₂_reverse_iff.2 (List.rel_foldl (fun s t hst x y hxy => ?_) .nil h)
  exact forall₂_insertFromEnd hbefore hxy hst

end

end RecordQuery
