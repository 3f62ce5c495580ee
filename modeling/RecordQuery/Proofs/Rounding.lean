import Mathlib.Tactic.Linarith
import Mathlib.Tactic.Ring
import RecordQuery.Binary64.Rounding

/-! What rounding to a double means. Consecutive magnitudes are one `ulp` apart, a quotient rounds
to the magnitude whose interval between the midpoints to its two neighbours it lies in, ends
included exactly when the magnitude is even, and `nearest` finds that magnitude for every quotient.
Two such intervals share at most one end, which belongs to the even one; hence the magnitude is
unique and grows with the quotient. -/

namespace RecordQuery

/-- `q` is the integer nearest to `num / den`; an odd one is never chosen in a tie. -/
structure Near (q num den : ℕ) : Prop where
  below : 2 * (q * den) ≤ 2 * num + den
  above : 2 * num ≤ 2 * (q * den) + den
  below_lt : q % 2 = 1 → 2 * (q * den) < 2 * num + den
  above_lt : q % 2 = 1 → 2 * num < 2 * (q * den) + den

theorem le_roundHalfEven (num den : ℕ) : num / den ≤ roundHalfEven num den := by
  simp only [roundHalfEven]
  split
  · exact le_rfl
  · split <;> omega

theorem near_roundHalfEven (num : ℕ) {den : ℕ} (h : 0 < den) :
    Near (roundHalfEven num den) num den := by
  have hsplit := Nat.div_add_mod num den
  have hrest := Nat.mod_lt num h
  have hbelow : num / den * den = den * (num / den) := Nat.mul_comm _ _
  have hnext : (num / den + 1) * den = den * (num / den) + den := by ring
  simp only [roundHalfEven]
  split
  · constructor <;> rw [hbelow] <;> omega
  · split
    · constructor <;> rw [hnext] <;> omega
    · rcases Nat.mod_two_eq_zero_or_one (num / den) with heven | hodd
      · rw [heven, Nat.add_zero]
        constructor <;> rw [hbelow] <;> omega
      · rw [hodd]
        constructor <;> rw [hnext] <;> omega

theorem roundHalfEven_mul_right (num den : ℕ) {c : ℕ} (hc : 0 < c) :
    roundHalfEven (num * c) (den * c) = roundHalfEven num den := by
  have hlt (a b : ℕ) : a * c < b * c ↔ a < b := Nat.mul_lt_mul_right hc
  simp only [roundHalfEven, Nat.mul_div_mul_right num den hc, Nat.mul_mod_mul_right,
    ← Nat.mul_assoc, hlt]

namespace Binary64

/-! ### The grid of magnitudes -/

/-- The distance from a magnitude to the next one, in units of `2 ^ -1074`. -/
def ulp (m : ℕ) : ℕ := 2 ^ (m / 2 ^ 52 - 1)

theorem ulp_pos (m : ℕ) : 0 < ulp m := Nat.two_pow_pos _

theorem ulp_of_lt {m : ℕ} (h : m < 2 ^ 53) : ulp m = 1 := by
  have : m / 2 ^ 52 - 1 = 0 := by omega
  rw [ulp, this, pow_zero]

theorem two_pow_le_ulp {s q : ℕ} (low : 2 ^ 52 ≤ q) : 2 ^ s ≤ ulp (s * 2 ^ 52 + q) :=
  Nat.pow_le_pow_right (by decide) (by omega)

theorem units_of_lt {m : ℕ} (h : m < 2 ^ 52) : units m = m := by
  rw [units, Nat.pow_eq, if_pos h]

theorem units_of_le {m : ℕ} (h : 2 ^ 52 ≤ m) : units m = (2 ^ 52 + m % 2 ^ 52) * ulp m := by
  simp only [units, Nat.pow_eq, if_neg (Nat.not_lt.2 h), ulp]

theorem units_succ (m : ℕ) : units (m + 1) = units m + ulp m := by
  by_cases hlt : m < 2 ^ 52
  · have hone : ulp m = 1 := ulp_of_lt (by omega)
    by_cases hedge : m + 1 < 2 ^ 52
    · rw [units_of_lt hedge, units_of_lt hlt, hone]
    · have hm : m + 1 = 2 ^ 52 := by omega
      rw [hm, units_of_lt hlt, hone, hm]
      decide
  · rw [units_of_le (m := m) (by omega), units_of_le (by omega)]
    by_cases hcarry : m % 2 ^ 52 + 1 < 2 ^ 52
    · have hdiv : (m + 1) / 2 ^ 52 = m / 2 ^ 52 := by omega
      have hmod : (m + 1) % 2 ^ 52 = m % 2 ^ 52 + 1 := by omega
      simp only [ulp, hdiv, hmod]
      ring
    · -- the fraction runs over into the exponent
      have hdiv : (m + 1) / 2 ^ 52 - 1 = (m / 2 ^ 52 - 1) + 1 := by omega
      have hmod : (m + 1) % 2 ^ 52 = 0 := by omega
      have hlast : m % 2 ^ 52 = 2 ^ 52 - 1 := by omega
      unfold ulp
      rw [hdiv, hmod, hlast, pow_succ _ (m / 2 ^ 52 - 1)]
      ring

theorem units_lt_units {m n : ℕ} (h : m < n) : units m < units n :=
  strictMono_nat_of_lt_succ (fun k => by have := ulp_pos k; rw [units_succ]; omega) h

theorem units_le_units {m n : ℕ} (h : m ≤ n) : units m ≤ units n := by
  rcases Nat.lt_or_eq_of_le h with hlt | rfl
  · exact (units_lt_units hlt).le
  · exact le_rfl

/-- A significand of 53 bits, or the power of two after the last one, and its shift. -/
theorem units_shift {s q : ℕ} (low : 2 ^ 52 ≤ q) (high : q ≤ 2 ^ 53) :
    units (s * 2 ^ 52 + q) = q * 2 ^ s := by
  rw [units_of_le (by omega), ulp]
  rcases Nat.lt_or_eq_of_le high with hq | rfl
  · have hdiv : (s * 2 ^ 52 + q) / 2 ^ 52 - 1 = s := by omega
    have hmod : (s * 2 ^ 52 + q) % 2 ^ 52 = q - 2 ^ 52 := by omega
    rw [hdiv, hmod, Nat.add_sub_cancel' low]
  · have hdiv : (s * 2 ^ 52 + 2 ^ 53) / 2 ^ 52 - 1 = s + 1 := by omega
    have hmod : (s * 2 ^ 52 + 2 ^ 53) % 2 ^ 52 = 0 := by omega
    rw [hdiv, hmod, pow_succ _ s]
    ring

theorem units_of_le_two_pow {m : ℕ} (h : m ≤ 2 ^ 53) : units m = m := by
  by_cases hlt : m < 2 ^ 52
  · exact units_of_lt hlt
  · simpa using units_shift (s := 0) (q := m) (by omega) h

/-! ### What rounds to a magnitude -/

/-- `value / den`, in units of `2 ^ -1074`, lies between the midpoints to the neighbours of a
magnitude, and strictly so when the magnitude is odd. -/
structure RoundsTo (m value den : ℕ) : Prop where
  lower : (units (m - 1) + units m) * den ≤ 2 * value
  upper : 2 * value ≤ (units m + units (m + 1)) * den
  lower_lt : m % 2 = 1 → (units (m - 1) + units m) * den < 2 * value
  upper_lt : m % 2 = 1 → 2 * value < (units m + units (m + 1)) * den

theorem RoundsTo.le_of_le {m n v w den : ℕ} (hden : 0 < den) (hm : RoundsTo m v den)
    (hn : RoundsTo n w den) (h : v ≤ w) : m ≤ n := by
  by_contra hlt
  rw [Nat.not_le] at hlt
  have hprev : n ≤ m - 1 := by omega
  have hnext : units (n + 1) ≤ units m := units_le_units hlt
  have hends := Nat.mul_le_mul_right den (Nat.add_le_add (units_le_units hprev) hnext)
  have hlow := hm.lower
  have hhigh := hn.upper
  -- the two intervals meet in one point at most, which belongs to the even one
  rcases Nat.lt_or_eq_of_le hprev with hgap | hgap
  · have := Nat.mul_lt_mul_of_pos_right
      (Nat.add_lt_add_of_lt_of_le (units_lt_units hgap) hnext) hden
    omega
  · rcases Nat.mod_two_eq_zero_or_one m with heven | hodd
    · have := hn.upper_lt (by omega)
      omega
    · have := hm.lower_lt hodd
      omega

theorem RoundsTo.unique {m n v den : ℕ} (hden : 0 < den) (hm : RoundsTo m v den)
    (hn : RoundsTo n v den) : m = n :=
  Nat.le_antisymm (hm.le_of_le hden hn le_rfl) (hn.le_of_le hden hm le_rfl)

theorem roundsTo_of_small {q value den : ℕ} (high : q ≤ 2 ^ 53) (near : Near q value den) :
    RoundsTo q value den := by
  obtain ⟨below, above, below_lt, above_lt⟩ := near
  have hend : 2 * (q * den) + den ≤ (units q + units (q + 1)) * den := by
    rw [units_succ, units_of_le_two_pow high]
    have := Nat.mul_le_mul_right den (ulp_pos q)
    nlinarith
  rcases Nat.eq_zero_or_pos q with rfl | hq
  · constructor <;> simp_all [units]
  · have hstart : (units (q - 1) + units q) * den + den = 2 * (q * den) := by
      rw [units_of_le_two_pow high, units_of_le_two_pow (by omega)]
      obtain ⟨r, rfl⟩ : ∃ r, q = r + 1 := ⟨q - 1, by omega⟩
      rw [Nat.add_sub_cancel]
      ring
    constructor <;> intros <;> omega

theorem roundsTo_of_shift {s q value den : ℕ} (low : 2 ^ 52 ≤ q) (high : q ≤ 2 ^ 53)
    (near : Near q value (den * 2 ^ s)) (floor : 2 ^ 52 * 2 ^ s * den ≤ value) :
    RoundsTo (s * 2 ^ 52 + q) value den := by
  obtain ⟨below, above, below_lt, above_lt⟩ := near
  have hunits := units_shift (s := s) low high
  have hhere : units (s * 2 ^ 52 + q) * den = q * (den * 2 ^ s) := by rw [hunits]; ring
  have hend : 2 * (q * (den * 2 ^ s)) + den * 2 ^ s ≤
      (units (s * 2 ^ 52 + q) + units (s * 2 ^ 52 + q + 1)) * den := by
    rw [units_succ, Nat.add_mul, Nat.add_mul, hhere, Nat.mul_comm den]
    have := Nat.mul_le_mul_right den (two_pow_le_ulp (s := s) low)
    omega
  have hodd : (s * 2 ^ 52 + q) % 2 = q % 2 := by omega
  rcases Nat.lt_or_eq_of_le low with hq | rfl
  · have hstart : (units (s * 2 ^ 52 + q - 1) + units (s * 2 ^ 52 + q)) * den + den * 2 ^ s =
        2 * (q * (den * 2 ^ s)) := by
      obtain ⟨r, rfl⟩ : ∃ r, q = r + 1 := ⟨q - 1, by omega⟩
      rw [hunits, ← Nat.add_assoc, Nat.add_sub_cancel, units_shift (by omega) (by omega)]
      ring
    constructor <;> intros <;> omega
  · -- below the smallest significand the grid is finer, but the quotient is not below it
    have hstart : (units (s * 2 ^ 52 + 2 ^ 52 - 1) + units (s * 2 ^ 52 + 2 ^ 52)) * den ≤
        2 * (2 ^ 52 * 2 ^ s * den) := by
      have hprev := units_lt_units (show s * 2 ^ 52 + 2 ^ 52 - 1 < s * 2 ^ 52 + 2 ^ 52 by omega)
      rw [hunits] at hprev ⊢
      rw [← Nat.mul_assoc]
      exact Nat.mul_le_mul_right den (by omega)
    constructor <;> intros <;> omega

/-! ### The nearest double -/

/-- The shift leaves at most 53 bits of a quotient. -/
theorem quotient_lt (value den : ℕ) :
    value / den < 2 ^ 53 * 2 ^ ((value / den).log2 - 52) := by
  rw [← pow_add]
  exact Nat.lt_of_lt_of_le Nat.lt_log2_self (Nat.pow_le_pow_right (by decide) (by omega))

theorem le_quotient {value den : ℕ} (h : 52 < (value / den).log2) :
    2 ^ 52 * 2 ^ ((value / den).log2 - 52) ≤ value / den := by
  rw [← pow_add, Nat.add_sub_cancel' h.le]
  exact Nat.log2_self_le (by rintro h0; simp [h0] at h)

/-- The magnitude of `nearest` before everything large becomes infinite. -/
def nearestMagnitude (value den : ℕ) : ℕ :=
  let shift := (value / den).log2 - 52
  shift * 2 ^ 52 + roundHalfEven value (den * 2 ^ shift)

theorem magnitude_nearest (s : Bool) (num den : ℕ) : (nearest s num den).magnitude =
    min (nearestMagnitude (num * Nat.pow 2 1074) den) infinite := rfl

theorem roundsTo_nearestMagnitude (value : ℕ) {den : ℕ} (hden : 0 < den) :
    RoundsTo (nearestMagnitude value den) value den := by
  have hlt := quotient_lt value den
  by_cases hbig : 52 < (value / den).log2
  · have hle := le_quotient hbig
    unfold nearestMagnitude
    simp only
    generalize (value / den).log2 - 52 = s at *
    have hpos := Nat.two_pow_pos s
    have hquot : value / (den * 2 ^ s) = value / den / 2 ^ s := (Nat.div_div_eq_div_mul ..).symm
    have low : 2 ^ 52 ≤ value / (den * 2 ^ s) := by
      rw [hquot]
      exact (Nat.le_div_iff_mul_le hpos).2 hle
    have high : value / (den * 2 ^ s) < 2 ^ 53 := by
      rw [hquot]
      exact (Nat.div_lt_iff_lt_mul hpos).2 hlt
    exact roundsTo_of_shift (low.trans (le_roundHalfEven ..))
      ((roundHalfEven_le ..).trans high) (near_roundHalfEven value (Nat.mul_pos hden hpos))
      ((Nat.le_div_iff_mul_le hden).1 hle)
  · have hzero : (value / den).log2 - 52 = 0 := by omega
    rw [hzero] at hlt
    simp only [nearestMagnitude, hzero, Nat.zero_mul, Nat.zero_add, pow_zero, Nat.mul_one]
    exact roundsTo_of_small ((roundHalfEven_le ..).trans (by omega)) (near_roundHalfEven value hden)

theorem eq_of_parts {x y : Binary64} (sign : x.negative = y.negative)
    (magnitude : x.magnitude = y.magnitude) : x = y := by
  cases x
  cases y
  simp_all

/-- The nearest double is the one in whose interval the quotient lies. -/
theorem nearest_eq_of_roundsTo {num den : ℕ} {x : Binary64} (hden : 0 < den)
    (hx : x.magnitude ≤ infinite) (h : RoundsTo x.magnitude (num * Nat.pow 2 1074) den) :
    nearest x.negative num den = x := by
  refine eq_of_parts (negative_nearest ..) ?_
  rw [magnitude_nearest, (roundsTo_nearestMagnitude _ hden).unique hden h, Nat.min_eq_left hx]

theorem nearest_mul_right (s : Bool) (num den : ℕ) {c : ℕ} (hc : 0 < c) :
    nearest s (num * c) (den * c) = nearest s num den := by
  have hvalue : num * c * Nat.pow 2 1074 = num * Nat.pow 2 1074 * c := Nat.mul_right_comm ..
  have hden (shift : ℕ) : den * c * Nat.pow 2 shift = den * Nat.pow 2 shift * c :=
    Nat.mul_right_comm ..
  simp only [nearest, hvalue, hden, Nat.mul_div_mul_right _ _ hc, roundHalfEven_mul_right _ _ hc]

theorem magnitude_nearest_zero (s : Bool) (den : ℕ) : (nearest s 0 den).magnitude = 0 := by
  have hround : roundHalfEven 0 (den * Nat.pow 2 0) = 0 := by simp [roundHalfEven]
  simp only [nearest, ofMagnitude, Nat.zero_mul, Nat.zero_div, Nat.log2_zero, Nat.zero_sub, hround,
    Nat.zero_add, Nat.zero_min]

theorem magnitude_nearest_le {s t : Bool} {m n den : ℕ} (hden : 0 < den) (h : m ≤ n) :
    (nearest s m den).magnitude ≤ (nearest t n den).magnitude := by
  rw [magnitude_nearest, magnitude_nearest]
  have hle := (roundsTo_nearestMagnitude _ hden).le_of_le hden (roundsTo_nearestMagnitude _ hden)
    (Nat.mul_le_mul_right (Nat.pow 2 1074) h)
  exact min_le_min_right _ hle

end Binary64

end RecordQuery
