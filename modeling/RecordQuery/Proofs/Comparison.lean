import RecordQuery.Operator
import RecordQuery.Proofs.Denotation

/-! Comparison of the numeric family. Rounding integers to doubles keeps their order, though it may
make different ones equal; so an integer may stand for a double it equals exactly when no other
integer equals the double too. -/

namespace RecordQuery

namespace Binary64

theorem scaled_of_magnitude_eq_zero {x : Binary64} (h : x.magnitude = 0) : x.scaled = 0 := by
  have hunits : units 0 = 0 := by decide
  simp [scaled, h, hunits]

/-- Rounding keeps the order of integers. -/
theorem scaled_ofInt_le {m n : ℤ} (h : m ≤ n) : (ofInt m).scaled ≤ (ofInt n).scaled := by
  have hle {s t : Bool} {a b : ℕ} (hab : a ≤ b) :
      units (nearest s a 1).magnitude ≤ units (nearest t b 1).magnitude :=
    units_le_units (magnitude_nearest_le (by decide) hab)
  simp only [ofInt, scaled, negative_nearest, decide_eq_true_eq]
  rcases Int.lt_or_le m 0 with hm | hm
  · rcases Int.lt_or_le n 0 with hn | hn
    · rw [if_pos hm, if_pos hn]
      have := @hle (decide (n < 0)) (decide (m < 0)) n.natAbs m.natAbs (by omega)
      omega
    · rw [if_pos hm, if_neg (by omega)]
      omega
  · rw [if_neg (by omega), if_neg (by omega)]
    have := @hle (decide (m < 0)) (decide (n < 0)) m.natAbs n.natAbs (by omega)
    omega

theorem isNaN_ofInt (n : ℤ) : (ofInt n).isNaN = false := isNaN_nearest ..

theorem compare_eq_some {x y : Binary64} (hx : x.isNaN = false) (hy : y.isNaN = false) :
    x.compare y = some (Ord.compare x.scaled y.scaled) := by
  simp [compare, hx, hy]

/-- Only the number that a double is counts in a comparison. -/
theorem compare_congr {x y : Binary64} (hnan : x.isNaN = y.isNaN) (hscaled : x.scaled = y.scaled)
    (z : Binary64) : x.compare z = y.compare z := by
  simp only [compare, hnan, hscaled]

theorem compare_swap (x y : Binary64) : y.compare x = (x.compare y).map Ordering.swap := by
  unfold compare
  rw [Bool.or_comm]
  split
  · rfl
  · rw [Option.map_some, Int.compare_swap]

/-- A double is the number that its text spells. -/
theorem scaled_of_spelledInt? {x : Binary64} {n : Int64} (h : x.spelledInt? = some n) :
    x.scaled = (ofInt n.toInt).scaled := by
  obtain ⟨hfin, whole, hn⟩ := spelledInt?_eq_some h
  rw [hn]
  by_cases hzero : (FloatLayout.plain.numeral x).toInt = 0
  · have hx : x.magnitude = 0 := congrArg magnitude (eq_zero_of_toInt hfin whole hzero)
    rw [hzero, scaled_of_magnitude_eq_zero hx]
    exact (scaled_of_magnitude_eq_zero (magnitude_nearest_zero ..)).symm
  · rw [← (FloatLayout.positional_numeral_plain x).toBinary64_eq_ofInt whole hzero,
      FloatLayout.toBinary64_numeral_plain hfin]

/-- Integers compare as their doubles do, if the doubles are equal only for equal integers. -/
theorem compare_ofInt {m n : ℤ} (h : (ofInt m).scaled = (ofInt n).scaled → m = n) :
    (ofInt m).compare (ofInt n) = some (Ord.compare m n) := by
  rw [compare_eq_some (isNaN_ofInt m) (isNaN_ofInt n)]
  congr 1
  rcases Int.lt_trichotomy m n with hlt | rfl | hgt
  · have hle := scaled_ofInt_le hlt.le
    rw [compare_lt_iff_lt.2 hlt, compare_lt_iff_lt]
    omega
  · rw [compare_eq_iff_eq.2 rfl, compare_eq_iff_eq.2 rfl]
  · have hle := scaled_ofInt_le hgt.le
    rw [compare_gt_iff_gt.2 hgt, compare_gt_iff_gt]
    omega

/-- Zero is the only integer whose double is zero. -/
theorem eq_zero_of_scaled_ofInt {m : ℤ} (h : (ofInt m).scaled = 0) : m = 0 := by
  have hbelow : (ofInt (-1)).scaled < 0 := by decide +kernel
  have habove : 0 < (ofInt 1).scaled := by decide +kernel
  rcases Int.lt_trichotomy m 0 with hlt | hzero | hgt
  · have hle := scaled_ofInt_le (show m ≤ -1 by omega)
    omega
  · exact hzero
  · have hle := scaled_ofInt_le (show 1 ≤ m by omega)
    omega

end Binary64

namespace Value

theorem compare_swap (a b : Value) : b.compare a = (a.compare b).map Ordering.swap := by
  cases a with
  | nil => cases b <;> rfl
  | string s =>
    cases b with
    | string t => exact congrArg some Std.OrientedCmp.eq_swap
    | _ => rfl
  | bool | integer =>
    cases b with
    | bool | integer => exact congrArg some (Int.compare_swap _ _).symm
    | float => exact Binary64.compare_swap _ _
    | _ => rfl
  | float =>
    cases b with
    | bool | integer | float => exact Binary64.compare_swap _ _
    | _ => rfl

/-! ### Values that may stand for one another -/

/-- Two values that no operator tells apart, on either side and with case folded or not. -/
def Alike (v w : Value) : Prop := ∀ (op : Operator) (foldCase : Bool) (u : Value),
  op.holds foldCase v u = op.holds foldCase w u ∧ op.holds foldCase u v = op.holds foldCase u w

theorem alike_refl (v : Value) : v.Alike v := fun _ _ _ => ⟨rfl, rfl⟩

theorem lower_of_kind {v : Value} (h : v.kind ≠ .string) : v.lower = v := by
  cases v with
  | string s => exact absurd rfl h
  | _ => rfl

/-- What is no string is told apart by comparison only. -/
theorem alike_of_compare {v w : Value} (hv : v.kind ≠ .string) (hw : w.kind ≠ .string)
    (h : ∀ u, v.compare u = w.compare u) : v.Alike w := by
  have hright (u : Value) : u.compare v = u.compare w := by
    rw [compare_swap v u, compare_swap w u, h u]
  have hstrings {v : Value} (hv : v.kind ≠ .string) (relates : List Char → List Char → Bool)
      (u : Value) : Operator.onStrings relates v u = false ∧
        Operator.onStrings relates u v = false := by
    cases v with
    | string s => exact absurd rfl hv
    | _ => cases u <;> exact ⟨rfl, rfl⟩
  have hrelates (op : Operator) (u : Value) :
      op.relates v u = op.relates w u ∧ op.relates u v = op.relates u w := by
    cases op <;> simp only [Operator.relates, h, hright, hstrings hv, hstrings hw, and_self]
  intro op foldCase u
  cases foldCase with
  | false => exact hrelates op u
  | true =>
    rw [Operator.holds_true, Operator.holds_true, Operator.holds_true, Operator.holds_true,
      lower_of_kind hv, lower_of_kind hw]
    exact hrelates op u.lower

/-- A literal that the one its text denotes may stand for: it is finite, and the integer that is
written for it, if one is, is the only one equal to it. -/
def Settled (v : Value) : Prop :=
  v.isFinite = true ∧ ∀ m n : Int64, v.denoted = integer n →
    (integer m).compare v = some .eq → m = n

theorem toInt_ofBool (b : Bool) : (if b then 1 else 0 : Int64).toInt = if b then 1 else 0 := by
  cases b <;> decide

theorem alike_denoted_bool (b : Bool) : (bool b).denoted.Alike (bool b) := by
  refine alike_of_compare (by simp [denoted, kind]) (by simp [kind]) fun u => ?_
  show (integer (if b then 1 else 0)).compare u = (bool b).compare u
  cases u <;> simp [compare, int?, double?, toInt_ofBool]

/-- The integer that is written for a double stands for it, if no other integer is equal to it. -/
theorem alike_spelledInt {x : Binary64} {n : Int64} (hn : x.spelledInt? = some n)
    (alone : ∀ m, (integer m).compare (float x) = some .eq → m = n) :
    (integer n).Alike (float x) := by
  have hscaled := Binary64.scaled_of_spelledInt? hn
  have hnan : (Binary64.ofInt n.toInt).isNaN = x.isNaN := by
    rw [Binary64.isNaN_ofInt, Binary64.isNaN_of_isFinite (Binary64.spelledInt?_eq_some hn).1]
  have hcompare := Binary64.compare_congr hnan hscaled.symm
  have hinteger (m : Int64) :
      some (Ord.compare n.toInt m.toInt) = x.compare (Binary64.ofInt m.toInt) := by
    rw [← hcompare, Binary64.compare_ofInt]
    intro heq
    have halone : (integer m).compare (float x) = some .eq := by
      show (Binary64.ofInt m.toInt).compare x = some .eq
      rw [Binary64.compare_eq_some (Binary64.isNaN_ofInt _) (hnan ▸ Binary64.isNaN_ofInt _),
        compare_eq_iff_eq.2 (heq.symm.trans hscaled.symm)]
    rw [alone m halone]
  refine alike_of_compare (by simp [kind]) (by simp [kind]) fun u => ?_
  cases u with
  | nil | string => rfl
  | integer m => exact hinteger m
  | float y => exact hcompare y
  | bool b =>
    have := hinteger (if b then 1 else 0)
    rw [toInt_ofBool] at this
    exact this

theorem settled_of_kind {v : Value} (h : v.kind ≠ .float) : v.Settled := by
  cases v with
  | float x => exact absurd rfl h
  | nil | string => exact ⟨rfl, fun m n hn _ => absurd hn (by simp [denoted])⟩
  | integer k =>
    refine ⟨rfl, fun m n hn heq => ?_⟩
    obtain rfl : k = n := Value.integer.inj hn
    rw [compare_integers, Option.some.injEq, compare_eq_iff_eq] at heq
    exact Int64.toInt_inj.1 heq
  | bool b =>
    refine ⟨rfl, fun m n hn heq => ?_⟩
    obtain rfl : (if b then 1 else 0) = n := Value.integer.inj hn
    have heq : some (Ord.compare m.toInt (if b then 1 else 0)) = some .eq := heq
    rw [Option.some.injEq, compare_eq_iff_eq, ← toInt_ofBool] at heq
    exact Int64.toInt_inj.1 heq

theorem settled_of_spelledInt?_eq_none {x : Binary64} (hfin : x.isFinite = true)
    (h : x.spelledInt? = none) : (float x).Settled := by
  refine ⟨hfin, fun m n hn _ => ?_⟩
  rw [denoted_float, h] at hn
  exact absurd hn (by simp)

/-- The integer zero, which a negative zero is read as, is the only one equal to it. -/
theorem settled_negative_zero : (float (.zero true)).Settled := by
  refine ⟨by decide, fun m n hn heq => ?_⟩
  have hdenoted : (float (.zero true)).denoted = integer 0 := by decide
  obtain rfl := integer.inj (hdenoted.symm.trans hn)
  have heq : (Binary64.ofInt m.toInt).compare (.zero true) = some .eq := heq
  rw [Binary64.compare_eq_some (Binary64.isNaN_ofInt _) (by decide), Option.some.injEq,
    compare_eq_iff_eq] at heq
  exact Int64.toInt_inj.1 (Binary64.eq_zero_of_scaled_ofInt heq)

theorem alike_denoted {v : Value} (h : v.Settled) : v.denoted.Alike v := by
  cases v with
  | bool b => exact alike_denoted_bool b
  | float x =>
    obtain ⟨-, halone⟩ := h
    rw [denoted_float] at halone ⊢
    cases hn : x.spelledInt? with
    | none => exact alike_refl _
    | some n => exact alike_spelledInt hn fun m => halone m n (by rw [hn])
  | _ => exact alike_refl _

end Value

end RecordQuery
