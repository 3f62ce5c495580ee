import Mathlib.Data.List.Forall2
import RecordQuery.Criterion.Printer
import RecordQuery.RecordSet

/-! Equality of record sets. Unordered sets are compared by giving each record of the one the first
equal record of the other that is still free. As long as equality of records is an equivalence it
does not matter which of several equal ones is given away, so the comparison succeeds exactly for
equal multisets: every record is there as often, up to equality, in the one as in the other. -/

namespace RecordQuery

variable {α : Type} [BEq α]

namespace RecordSet

variable {a b : RecordSet α} {xs ys zs : List α} {x y : α}

/-! ### Giving away equal elements -/

theorem perm_of_take? (h : take? x ys = some zs) : ∃ y, (y == x) = true ∧ ys.Perm (y :: zs) := by
  induction ys generalizing zs with
  | nil => exact absurd h (by simp [take?])
  | cons y ys ih =>
    rw [take?] at h
    split at h
    · rename_i hy
      obtain rfl := Option.some.inj h
      exact ⟨y, hy, .refl _⟩
    · obtain ⟨rest, hrest, rfl⟩ := Option.map_eq_some_iff.1 h
      obtain ⟨z, hz, hperm⟩ := ih hrest
      exact ⟨z, hz, (hperm.cons y).trans (.swap z y rest)⟩

theorem exists_take? (hy : y ∈ ys) (h : (y == x) = true) : ∃ zs, take? x ys = some zs := by
  induction ys with
  | nil => exact absurd hy List.not_mem_nil
  | cons z ys ih =>
    rw [take?]
    split
    · exact ⟨ys, rfl⟩
    · rename_i hz
      rcases List.mem_cons.1 hy with rfl | hy
      · exact absurd h hz
      · obtain ⟨zs, hzs⟩ := ih hy
        exact ⟨z :: zs, by rw [hzs]; rfl⟩

/-- Two lists are equal element by element, once the first is rearranged. -/
def Rearranges (xs ys : List α) : Prop :=
  ∃ l : List α, l.Perm xs ∧ List.Forall₂ (fun x y => (x == y) = true) l ys

theorem records_beq_iff : (xs == ys) = true ↔ List.Forall₂ (fun x y => (x == y) = true) xs ys := by
  induction xs generalizing ys with
  | nil => cases ys <;> simp
  | cons x xs ih => cases ys <;> simp [ih]

theorem beq_eq (a b : RecordSet α) : (a == b) = (a.ordered == b.ordered &&
    a.records.length == b.records.length &&
      if a.ordered then a.records == b.records else matchAll a.records b.records) := rfl

theorem beq_of_ne (h : a.ordered ≠ b.ordered) : (a == b) = false := by
  rw [beq_eq, beq_eq_false_iff_ne.2 h, Bool.false_and, Bool.false_and]

theorem beq_ordered (ha : a.ordered = true) (hb : b.ordered = true) : (a == b) = true ↔
    List.Forall₂ (fun x y => (x == y) = true) a.records b.records := by
  rw [beq_eq, ha, hb, if_pos rfl, Bool.and_eq_true, records_beq_iff]
  exact ⟨fun h => h.2, fun h => ⟨by simp [h.length_eq], h⟩⟩

theorem beq_unordered (ha : a.ordered = false) (hb : b.ordered = false) : (a == b) = true ↔
    a.records.length = b.records.length ∧ matchAll a.records b.records = true := by
  simp [beq_eq, ha, hb]

/-! ### Counting up to equality -/

variable [EquivBEq α]

theorem count_of_forall₂ (h : List.Forall₂ (fun x y => (x == y) = true) xs ys) (w : α) :
    xs.count w = ys.count w := by
  induction h with
  | nil => rfl
  | cons hxy _ ih => rw [List.count_cons, List.count_cons, ih, BEq.congr_left hxy]

theorem count_of_rearranges (h : Rearranges xs ys) (w : α) : xs.count w = ys.count w := by
  obtain ⟨l, hperm, hpairs⟩ := h
  rw [← count_of_forall₂ hpairs, hperm.count_eq]

theorem count_of_take? (h : take? x ys = some zs) (w : α) : ys.count w = (x :: zs).count w := by
  obtain ⟨y, hy, hperm⟩ := perm_of_take? h
  rw [hperm.count_eq, List.count_cons, List.count_cons, BEq.congr_left hy]

theorem count_of_matchAll (hlength : xs.length = ys.length) (h : matchAll xs ys = true) (w : α) :
    xs.count w = ys.count w := by
  induction xs generalizing ys with
  | nil =>
    obtain rfl := List.length_eq_zero_iff.1 hlength.symm
    rfl
  | cons x xs ih =>
    rw [matchAll] at h
    split at h
    · rename_i zs hzs
      obtain ⟨y, -, hperm⟩ := perm_of_take? hzs
      have hrest : xs.length = zs.length := by
        rw [hperm.length_eq] at hlength
        exact Nat.succ.inj hlength
      rw [count_of_take? hzs, List.count_cons, List.count_cons, ih hrest h]
    · exact absurd h (by simp)

theorem count_pos_of_mem (h : x ∈ xs) : 0 < xs.count x :=
  List.countP_pos_iff.2 ⟨x, h, BEq.rfl⟩

/-- Where counts agree, the next element finds an equal one, whichever were given away before. -/
theorem exists_take?_of_count (h : ∀ w, (x :: xs).count w = ys.count w) :
    ∃ zs, take? x ys = some zs ∧ ∀ w, xs.count w = zs.count w := by
  have hpos : 0 < ys.count x := h x ▸ count_pos_of_mem List.mem_cons_self
  obtain ⟨y, hy, hyx⟩ := List.countP_pos_iff.1 hpos
  obtain ⟨zs, hzs⟩ := exists_take? hy hyx
  refine ⟨zs, hzs, fun w => ?_⟩
  have hw := h w
  rw [count_of_take? hzs, List.count_cons, List.count_cons] at hw
  exact Nat.add_right_cancel hw

theorem eq_nil_of_count (h : ∀ w, ys.count w = 0) : ys = [] := by
  cases ys with
  | nil => rfl
  | cons y ys => exact absurd (h y) (Nat.ne_of_gt (count_pos_of_mem List.mem_cons_self))

theorem matchAll_of_count (h : ∀ w, xs.count w = ys.count w) :
    xs.length = ys.length ∧ matchAll xs ys = true := by
  -- equal counts are what every step keeps, whichever equal element it gives away
  induction xs generalizing ys with
  | nil =>
    obtain rfl := eq_nil_of_count fun w => (h w).symm
    exact ⟨rfl, rfl⟩
  | cons x xs ih =>
    obtain ⟨zs, hzs, hrest⟩ := exists_take?_of_count h
    obtain ⟨hlength, hmatch⟩ := ih hrest
    obtain ⟨y, -, hperm⟩ := perm_of_take? hzs
    refine ⟨by rw [List.length_cons, hlength, hperm.length_eq, List.length_cons], ?_⟩
    rw [matchAll, hzs]
    exact hmatch

theorem rearranges_of_count (h : ∀ w, xs.count w = ys.count w) : Rearranges xs ys := by
  induction ys generalizing xs with
  | nil =>
    obtain rfl := eq_nil_of_count h
    exact ⟨[], .refl _, .nil⟩
  | cons y ys ih =>
    obtain ⟨zs, hzs, hrest⟩ := exists_take?_of_count fun w => (h w).symm
    obtain ⟨l, hl, hpairs⟩ := ih fun w => (hrest w).symm
    obtain ⟨z, hz, hperm⟩ := perm_of_take? hzs
    exact ⟨z :: l, (hl.cons z).trans hperm.symm, .cons hz hpairs⟩

theorem beq_iff_count (ha : a.ordered = false) (hb : b.ordered = false) :
    (a == b) = true ↔ ∀ x, a.records.count x = b.records.count x := by
  rw [beq_unordered ha hb]
  exact ⟨fun h => count_of_matchAll h.1 h.2, matchAll_of_count⟩

theorem beq_iff_rearranges (ha : a.ordered = false) (hb : b.ordered = false) :
    (a == b) = true ↔ Rearranges a.records b.records := by
  rw [beq_iff_count ha hb]
  exact ⟨rearranges_of_count, count_of_rearranges⟩

end RecordSet

/-! ### Equivalence -/

section

variable [EquivBEq α]

instance instEquivBEqList : EquivBEq (List α) where
  symm {xs ys} h := by
    rw [RecordSet.records_beq_iff] at h ⊢
    exact List.Forall₂.flip (h.imp fun _ _ => BEq.symm)
  trans {xs ys zs} h h' := by
    induction xs generalizing ys zs with
    | nil =>
      cases ys with
      | nil => exact h'
      | cons y ys => exact absurd h (by simp)
    | cons x xs ih =>
      cases ys with
      | nil => exact absurd h (by simp)
      | cons y ys =>
        cases zs with
        | nil => exact absurd h' (by simp)
        | cons z zs =>
          rw [List.cons_beq_cons, Bool.and_eq_true] at h h' ⊢
          exact ⟨BEq.trans h.1 h'.1, ih h.2 h'.2⟩

namespace RecordSet

/-- What two sets must have in common to be equal. -/
theorem beq_iff {a b : RecordSet α} : (a == b) = true ↔ a.ordered = b.ordered ∧
    (a.ordered = true → (a.records == b.records) = true) ∧
    (a.ordered = false → ∀ x, a.records.count x = b.records.count x) := by
  by_cases h : a.ordered = b.ordered
  · cases ha : a.ordered with
    | true =>
      have hb : b.ordered = true := h ▸ ha
      simp [hb, beq_ordered ha hb, records_beq_iff]
    | false =>
      have hb : b.ordered = false := h ▸ ha
      simp [hb, beq_iff_count ha hb]
  · simp [beq_of_ne h, h]

instance : EquivBEq (RecordSet α) where
  rfl := beq_iff.2 ⟨rfl, fun _ => BEq.rfl, fun _ _ => rfl⟩
  symm {a b} h := by
    obtain ⟨hordered, hlist, hcount⟩ := beq_iff.1 h
    exact beq_iff.2 ⟨hordered.symm, fun hb => BEq.symm (hlist (hordered.trans hb)),
      fun hb x => (hcount (hordered.trans hb) x).symm⟩
  trans {a b c} h h' := by
    obtain ⟨hordered, hlist, hcount⟩ := beq_iff.1 h
    obtain ⟨hordered', hlist', hcount'⟩ := beq_iff.1 h'
    exact beq_iff.2 ⟨hordered.trans hordered',
      fun ha => BEq.trans (hlist ha) (hlist' (hordered.symm.trans ha)),
      fun ha x => (hcount ha x).trans (hcount' (hordered.symm.trans ha) x)⟩

/-- Where equality of records is an equivalence relation, so is that of sets. Two unordered sets are
equal exactly if they hold every record equally often, up to equality, and exactly if the records of
the one can be rearranged to be equal one by one to those of the other; two ordered sets exactly if
their records are equal one by one; and a set that is ordered never equals one that is not. -/
theorem equal_as_multisets (a b c : RecordSet α) :
    (a.ordered = false → b.ordered = false →
      ((a == b) = true ↔ ∀ x, a.records.count x = b.records.count x) ∧
      ((a == b) = true ↔ ∃ l : List α,
        l.Perm a.records ∧ List.Forall₂ (fun x y => (x == y) = true) l b.records)) ∧
    (a.ordered = true → b.ordered = true →
      ((a == b) = true ↔ List.Forall₂ (fun x y => (x == y) = true) a.records b.records)) ∧
    (a.ordered ≠ b.ordered → (a == b) = false) ∧
    (a == a) = true ∧ (a == b) = (b == a) ∧
    ((a == b) = true → (b == c) = true → (a == c) = true) :=
  ⟨fun ha hb => ⟨beq_iff_count ha hb, beq_iff_rearranges ha hb⟩, beq_ordered, beq_of_ne, BEq.rfl,
    BEq.comm, BEq.trans⟩

end RecordSet

end

instance : EquivBEq Criterion where
  rfl := Criterion.beq_iff.2 rfl
  symm h := Criterion.beq_iff.2 (Criterion.beq_iff.1 h).symm
  trans h h' := Criterion.beq_iff.2 ((Criterion.beq_iff.1 h).trans (Criterion.beq_iff.1 h'))

/-- Criteria that are equal because their texts are, although they are not the same: taken with
another one, in another order, as two sequences, and with the other one twice. -/
theorem RecordSet.equal_as_multisets_texts :
    let built := Criterion.comparison ⟨["a"]⟩ .equal (.value (.bool true)) false
    let adopted := Criterion.native
      (.comparison (.path ⟨["a"]⟩) .equal (.literal (.integer 1)) false)
    let other := Criterion.comparison ⟨["b"]⟩ .less (.field ⟨["a"]⟩) true
    let a : RecordSet Criterion := ⟨0, false, [built, other, adopted, built]⟩
    let b : RecordSet Criterion := ⟨1, false, [adopted, built, adopted, other]⟩
    let c : RecordSet Criterion := ⟨2, true, [adopted, built, adopted, other]⟩
    let d : RecordSet Criterion := ⟨3, true, [built, adopted, built, other]⟩
    let e : RecordSet Criterion := ⟨4, false, [adopted, built, other, other]⟩
    (a == b) = true ∧ a.records.count built = b.records.count built ∧
      (a == c) = false ∧ (c == d) = true ∧ (a == e) = false := by
  intro built adopted other a b c d e
  obtain ⟨hab, -⟩ := equal_as_multisets a b c
  obtain ⟨-, -, hac, -⟩ := equal_as_multisets a c b
  obtain ⟨-, hcd, -⟩ := equal_as_multisets c d b
  obtain ⟨hae, -⟩ := equal_as_multisets a e b
  have halike : (adopted == built) = true := by decide
  have hpairs : List.Forall₂ (fun x y => (x == y) = true) c.records d.records :=
    .cons halike (.cons (BEq.symm halike) (.cons halike (.cons BEq.rfl .nil)))
  have hequal : (a == b) = true :=
    (hab rfl rfl).2.2 ⟨built :: [other, adopted, built].reverse,
      (List.reverse_perm _).cons built,
      .cons (BEq.symm halike) (.cons BEq.rfl (.cons BEq.rfl (.cons BEq.rfl .nil)))⟩
  refine ⟨hequal, (hab rfl rfl).1.1 hequal built, hac (by decide), (hcd rfl rfl).2 hpairs, ?_⟩
  rw [← Bool.not_eq_true, (hae rfl rfl).1]
  intro hcount
  exact absurd (hcount other) (by decide)

end RecordQuery
