import RecordQuery.Proofs.Comparison

/-! Collation of values. Doubles alone are in total order by rank, which counts magnitudes from zero
in both directions and so has the numbers that are none at its two ends. Integers compare exactly
with one another and by rank with doubles. Each of the two ways is a preorder, and rounding keeps
the order, so collation falls short of a preorder in one situation only: two integers out of order
with a double between them that both round to. -/

namespace RecordQuery

namespace Binary64

/-- The number of doubles from zero to here, negative below zero; the zeros share theirs. -/
def rank (x : Binary64) : ℤ := if x.negative then -(x.magnitude : ℤ) else x.magnitude

theorem units_zero : units 0 = 0 := by decide

theorem scaled_lt_iff (x y : Binary64) : x.scaled < y.scaled ↔ x.rank < y.rank := by
  have hlt {a b : ℕ} : units a < units b ↔ a < b :=
    ⟨fun h => by
      by_contra hba
      have := units_le_units (Nat.le_of_not_lt hba)
      omega, units_lt_units⟩
  have hx := @hlt 0 x.magnitude
  have hy := @hlt 0 y.magnitude
  have hxy := @hlt x.magnitude y.magnitude
  have hyx := @hlt y.magnitude x.magnitude
  rw [units_zero] at hx hy
  unfold scaled rank
  split <;> split <;> omega

/-- Doubles are the same number if they have the same rank. -/
theorem scaled_eq_iff (x y : Binary64) : x.scaled = y.scaled ↔ x.rank = y.rank := by
  have := scaled_lt_iff x y
  have := scaled_lt_iff y x
  omega

theorem compare_congr_of_lt {a b c d : ℤ} (h : a < b ↔ c < d) (h' : b < a ↔ d < c) :
    Ord.compare a b = Ord.compare c d := by
  rcases Int.lt_trichotomy a b with hlt | rfl | hgt
  · rw [compare_lt_iff_lt.2 hlt, compare_lt_iff_lt.2 (h.1 hlt)]
  · have heq : c = d := by omega
    rw [compare_eq_iff_eq.2 rfl, compare_eq_iff_eq.2 heq]
  · rw [compare_gt_iff_gt.2 hgt, compare_gt_iff_gt.2 (h'.1 hgt)]

/-- The order of doubles in collation, which is numeric where numbers are compared. -/
def collate (x y : Binary64) : Ordering := (x.compare y).getD (x.totalCompare y)

theorem collate_eq (x y : Binary64) : x.collate y = Ord.compare x.rank y.rank := by
  unfold collate compare
  split
  · rename_i hnan
    -- a number that is none is farther from zero than all others
    have hplace : x.place < y.place ↔ x.rank < y.rank := by
      simp only [isNaN, Bool.or_eq_true, decide_eq_true_eq] at hnan
      unfold place rank
      split <;> split <;> omega
    have hplace' : y.place < x.place ↔ y.rank < x.rank := by
      simp only [isNaN, Bool.or_eq_true, decide_eq_true_eq] at hnan
      unfold place rank
      split <;> split <;> omega
    exact compare_congr_of_lt hplace hplace'
  · exact compare_congr_of_lt (scaled_lt_iff x y) (scaled_lt_iff y x)

theorem rank_ofInt_le {m n : ℤ} (h : m ≤ n) : (ofInt m).rank ≤ (ofInt n).rank := by
  have hle := scaled_ofInt_le h
  have hlt := scaled_lt_iff (ofInt n) (ofInt m)
  omega

/-- Ranks of what is no number are the outermost. -/
theorem collate_of_isNaN {x y : Binary64} (hx : x.isNaN = true) (hy : y.isNaN = false) :
    x.collate y = if x.negative then .lt else .gt := by
  simp only [isNaN, decide_eq_true_eq, decide_eq_false_iff_not] at hx hy
  rw [collate_eq]
  unfold rank
  split
  · rw [compare_lt_iff_lt]
    split <;> omega
  · rw [compare_gt_iff_gt]
    split <;> omega

theorem compare_of_isNaN {x y : Binary64} (h : y.isNaN = true) : x.compare y = none := by
  simp [compare, h]

/-- Numbers that are equal in collation are equal. -/
theorem collate_eq_eq_iff {x y : Binary64} (hx : x.isNaN = false) :
    x.collate y = .eq ↔ x.compare y = some .eq := by
  cases hy : y.isNaN with
  | false => simp [collate, compare_eq_some hx hy]
  | true =>
    have hlast := collate_of_isNaN hy hx
    rw [collate_eq, ← Int.compare_swap, ← collate_eq, hlast, compare_of_isNaN hy]
    cases y.negative <;> simp

end Binary64

namespace Value

variable {a b c : Value}

theorem double?_of_int? {m : ℤ} (h : a.int? = some m) : a.double? = some (.ofInt m) := by
  cases a with
  | bool | integer =>
    obtain rfl := Option.some.inj h
    rfl
  | nil | float | string => exact absurd h (by simp [int?])

/-! ### Within a family and across -/

theorem collate_swap (a b : Value) : b.collate a = (a.collate b).swap := by
  have hfamily : Ord.compare b.family a.family = (Ord.compare a.family b.family).swap :=
    Std.OrientedCmp.eq_swap
  have hwithin : b.collateWithin a = (a.collateWithin b).swap := by
    unfold collateWithin
    rw [compare_swap a b]
    cases a.compare b with
    | some ordering => rfl
    | none => exact (Int.compare_swap _ _).symm
  rw [collate, collate, hfamily, hwithin, Ordering.swap_then]

theorem collate_of_family_lt (h : a.family < b.family) : a.collate b = .lt := by
  rw [collate, compare_lt_iff_lt.2 h]
  rfl

theorem family_le_of_collate (h : a.collate b ≠ .gt) : a.family ≤ b.family := by
  by_contra hlt
  exact h (by rw [collate_swap, collate_of_family_lt (Nat.lt_of_not_le hlt), Ordering.swap])

theorem collate_of_family_eq (h : a.family = b.family) : a.collate b = a.collateWithin b := by
  rw [collate, compare_eq_iff_eq.2 h]
  rfl

theorem collate_of_int? {m n : ℤ} (ha : a.int? = some m) (hb : b.int? = some n) :
    a.collate b = Ord.compare m n := by
  cases a with
  | bool | integer =>
    cases b with
    | bool | integer =>
      obtain rfl := Option.some.inj ha
      obtain rfl := Option.some.inj hb
      rfl
    | nil | float | string => exact absurd hb (by simp [int?])
  | nil | float | string => exact absurd ha (by simp [int?])

theorem exists_double? (h : a.family = 1) : ∃ x, a.double? = some x := by
  cases a with
  | bool | integer | float => exact ⟨_, rfl⟩
  | nil | string => exact absurd h (by simp [family])

theorem family_of_double? {x : Binary64} (h : a.double? = some x) : a.family = 1 := by
  cases a with
  | bool | integer | float => rfl
  | nil | string => exact absurd h (by simp [double?])

theorem compare_of_double? {x y : Binary64} (ha : a.double? = some x) (hb : b.double? = some y)
    (h : a.int? = none ∨ b.int? = none) : a.compare b = x.compare y := by
  cases a with
  | float =>
    cases b with
    | bool | integer | float =>
      obtain rfl := Option.some.inj ha
      obtain rfl := Option.some.inj hb
      rfl
    | nil | string => exact absurd hb (by simp [double?])
  | bool | integer =>
    cases b with
    | float =>
      obtain rfl := Option.some.inj ha
      obtain rfl := Option.some.inj hb
      rfl
    | bool | integer => exact absurd h (by simp [int?])
    | nil | string => exact absurd hb (by simp [double?])
  | nil | string => exact absurd ha (by simp [double?])

/-- With a double on either side the doubles decide. -/
theorem collate_of_double? {x y : Binary64} (ha : a.double? = some x) (hb : b.double? = some y)
    (h : a.int? = none ∨ b.int? = none) : a.collate b = x.collate y := by
  rw [collate_of_family_eq ((family_of_double? ha).trans (family_of_double? hb).symm),
    collateWithin, compare_of_double? ha hb h, ha, hb, Binary64.collate]
  cases x.compare y <;> rfl

/-! ### Transitivity -/

theorem collate_ne_gt_of_int? {m n : ℤ} (ha : a.int? = some m) (hb : b.int? = some n) :
    a.collate b ≠ .gt ↔ m ≤ n := by
  rw [collate_of_int? ha hb, compare_le_iff_le]

theorem collate_ne_gt_of_double? {x y : Binary64} (ha : a.double? = some x)
    (hb : b.double? = some y) (h : a.int? = none ∨ b.int? = none) :
    a.collate b ≠ .gt ↔ x.rank ≤ y.rank := by
  rw [collate_of_double? ha hb h, Binary64.collate_eq, compare_le_iff_le]

/-- Collation never goes against the rank of the doubles. -/
theorem rank_le_of_collate {x y : Binary64} (ha : a.double? = some x) (hb : b.double? = some y)
    (h : a.collate b ≠ .gt) : x.rank ≤ y.rank := by
  cases hm : a.int? with
  | none => exact (collate_ne_gt_of_double? ha hb (.inl hm)).1 h
  | some m =>
    cases hn : b.int? with
    | none => exact (collate_ne_gt_of_double? ha hb (.inr hn)).1 h
    | some n =>
      obtain rfl := Option.some.inj (ha.symm.trans (double?_of_int? hm))
      obtain rfl := Option.some.inj (hb.symm.trans (double?_of_int? hn))
      exact Binary64.rank_ofInt_le ((collate_ne_gt_of_int? hm hn).1 h)

/-- Two integers out of order with a double between them that both are equal to as doubles. -/
def Straddled (a b c : Value) : Prop :=
  ∃ (m n : ℤ) (x : Binary64), a.int? = some m ∧ b = float x ∧ c.int? = some n ∧ n < m ∧
    (Binary64.ofInt m).compare x = some .eq ∧ (Binary64.ofInt n).compare x = some .eq

theorem straddled_of_double? {x y z : Binary64} (ha : a.double? = some x) (hb : b.double? = some y)
    (hc : c.double? = some z) (hab : a.collate b ≠ .gt) (hbc : b.collate c ≠ .gt)
    (hac : a.collate c = .gt) : Straddled a b c := by
  have hxy := rank_le_of_collate ha hb hab
  have hyz := rank_le_of_collate hb hc hbc
  have hca : c.collate a ≠ .gt := by
    rw [collate_swap, hac]
    decide
  have hzx := rank_le_of_collate hc ha hca
  cases hm : a.int? with
  | none => exact absurd hac ((collate_ne_gt_of_double? ha hc (.inl hm)).2 (hxy.trans hyz))
  | some m =>
    cases hn : c.int? with
    | none => exact absurd hac ((collate_ne_gt_of_double? ha hc (.inr hn)).2 (hxy.trans hyz))
    | some n =>
      have hlt : n < m := by
        by_contra hle
        exact (collate_ne_gt_of_int? hm hn).2 (by omega) hac
      cases hk : b.int? with
      | some k =>
        have hmk := (collate_ne_gt_of_int? hm hk).1 hab
        have hkn := (collate_ne_gt_of_int? hk hn).1 hbc
        omega
      | none =>
        have hfloat : b = float y := by
          cases b with
          | float => exact congrArg float (Option.some.inj hb)
          | bool | integer => exact absurd hk (by simp [int?])
          | nil | string => exact absurd hb (by simp [double?])
        obtain rfl := Option.some.inj (ha.symm.trans (double?_of_int? hm))
        obtain rfl := Option.some.inj (hc.symm.trans (double?_of_int? hn))
        have heq {k : ℤ} (h : (Binary64.ofInt k).rank = y.rank) :
            (Binary64.ofInt k).compare y = some .eq := by
          rw [← Binary64.collate_eq_eq_iff (Binary64.isNaN_ofInt k), Binary64.collate_eq, h,
            compare_eq_iff_eq]
        exact ⟨m, n, y, hm, hfloat, hn, hlt, heq (by omega), heq (by omega)⟩

/-- Strings are in order. -/
theorem collate_strings_trans {s t u : String} (hst : (string s).collate (string t) ≠ .gt)
    (htu : (string t).collate (string u) ≠ .gt) : (string s).collate (string u) ≠ .gt := by
  have hle (s t : String) :
      (string s).collate (string t) ≠ .gt ↔ (Ord.compare s t).isLE = true :=
    Ordering.ne_gt_iff_isLE
  rw [hle] at *
  exact Std.TransCmp.isLE_trans hst htu

theorem eq_nil_of_family (h : a.family = 0) : a = nil := by
  cases a with
  | nil => rfl
  | bool | integer | float | string => exact absurd h (by simp [family])

theorem exists_string_of_family (h : a.family = 2) : ∃ s, a = string s := by
  cases a with
  | string s => exact ⟨s, rfl⟩
  | nil | bool | integer | float => exact absurd h (by simp [family])

/-- Transitivity fails where a double straddles two integers and nowhere else. -/
theorem not_transitive_iff :
    (a.collate b ≠ .gt ∧ b.collate c ≠ .gt ∧ a.collate c = .gt) ↔ Straddled a b c := by
  constructor
  · rintro ⟨hab, hbc, hac⟩
    have hca : c.collate a ≠ .gt := by
      rw [collate_swap, hac]
      decide
    have hba : b.family = a.family := by
      have := family_le_of_collate hab
      have := (family_le_of_collate hbc).trans (family_le_of_collate hca)
      omega
    have hcb : c.family = b.family := by
      have := family_le_of_collate hbc
      have := (family_le_of_collate hca).trans (family_le_of_collate hab)
      omega
    cases hfamily : a with
    | nil =>
      obtain rfl := hfamily
      obtain rfl := eq_nil_of_family (hcb.trans hba)
      exact absurd hac (by decide)
    | string s =>
      obtain rfl := hfamily
      obtain ⟨t, rfl⟩ := exists_string_of_family hba
      obtain ⟨u, rfl⟩ := exists_string_of_family hcb
      exact absurd hac (collate_strings_trans hab hbc)
    | bool | integer | float =>
      obtain ⟨x, hx⟩ := exists_double? (a := a) (by rw [hfamily]; rfl)
      obtain ⟨y, hy⟩ := exists_double? (hba.trans (family_of_double? hx))
      obtain ⟨z, hz⟩ := exists_double? (hcb.trans (family_of_double? hy))
      exact hfamily ▸ straddled_of_double? hx hy hz hab hbc hac
  · rintro ⟨m, n, x, hm, rfl, hn, hlt, hmx, hnx⟩
    have heq {k : ℤ} {v : Value} (hk : v.int? = some k)
        (h : (Binary64.ofInt k).compare x = some .eq) : v.collate (float x) = .eq := by
      rw [collate_of_double? (double?_of_int? hk) rfl (.inr rfl),
        Binary64.collate_eq_eq_iff (Binary64.isNaN_ofInt k), h]
    refine ⟨?_, ?_, ?_⟩
    · simp [heq hm hmx]
    · simp [collate_swap c, heq hn hnx]
    · rw [collate_of_int? hm hn, compare_gt_iff_gt]
      exact hlt

/-- Collation is antisymmetric, puts nil first and strings last, and is transitive exactly where no
double straddles two integers. What is no number comes after every number if it has no sign, and
before every number if it has one. -/
theorem collate_order (a b c : Value) :
    b.collate a = (a.collate b).swap ∧
    ((a.collate b ≠ .gt → b.collate c ≠ .gt → a.collate c ≠ .gt) ↔ ¬ Straddled a b c) ∧
    (a.double?.isSome = true → nil.collate a = .lt ∧ ∀ s, a.collate (string s) = .lt) ∧
    ∀ x y, a = float x → x.isNaN = true → b.double? = some y → y.isNaN = false →
      a.collate b = if x.negative then .lt else .gt := by
  refine ⟨collate_swap a b, ?_, fun ha => ?_, ?_⟩
  · rw [← not_transitive_iff]
    tauto
  · obtain ⟨x, hx⟩ := Option.isSome_iff_exists.1 ha
    have hfamily := family_of_double? hx
    exact ⟨collate_of_family_lt (hfamily ▸ Nat.zero_lt_one),
      fun s => collate_of_family_lt (hfamily ▸ Nat.one_lt_two)⟩
  · rintro x y rfl hx hb hy
    rw [collate_of_double? rfl hb (.inl rfl), Binary64.collate_of_isNaN hx hy]

/-- The first two integers that share a double, out of order, with that double between them; and a
number that is none, which with a sign comes before the number one and without a sign after it. -/
theorem collate_order_straddled :
    let a := integer (2 ^ 53 + 1)
    let b := float (.ofInt (2 ^ 53))
    let c := integer (2 ^ 53)
    (Straddled a b c ∧ ¬ (a.collate b ≠ .gt → b.collate c ≠ .gt → a.collate c ≠ .gt)) ∧
      (nil.collate a = .lt ∧ a.collate (string "") = .lt) ∧
      (float { Binary64.nan with negative := true }).collate (integer 1) = .lt ∧
      (float .nan).collate (integer 1) = .gt := by
  intro a b c
  obtain ⟨-, hpreorder, houter, -⟩ := collate_order a b c
  have hstraddled : Straddled a b c :=
    ⟨2 ^ 53 + 1, 2 ^ 53, .ofInt (2 ^ 53), by decide, rfl, by decide, by decide,
      by decide +kernel, by decide +kernel⟩
  obtain ⟨-, -, -, hsigned⟩ :=
    collate_order (float { Binary64.nan with negative := true }) (integer 1) c
  obtain ⟨-, -, -, hunsigned⟩ := collate_order (float .nan) (integer 1) c
  exact ⟨⟨hstraddled, fun h => hpreorder.1 h hstraddled⟩,
    ⟨(houter rfl).1, (houter rfl).2 ""⟩,
    hsigned _ _ rfl (by decide) rfl (by decide +kernel),
    hunsigned _ _ rfl (by decide) rfl (by decide +kernel)⟩

end Value

end RecordQuery
