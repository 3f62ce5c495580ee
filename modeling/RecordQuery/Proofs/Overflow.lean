import RecordQuery.Proofs.ShortestDigits
import RecordQuery.Value.Basic

/-! Numerals that are too large for a double. The largest finite double and the power of two after
it have a midpoint, and the double nearest to a number is finite exactly if the number is below that
midpoint in size. What a numeral names is therefore finite unless the numeral itself, as the decimal
number that it writes, reaches the midpoint. -/

namespace RecordQuery

namespace Binary64

/-- The midpoint between the largest finite double, `2 ^ 1024 - 2 ^ 971`, and `2 ^ 1024`. -/
def overflow : ℕ := 2 ^ 1024 - 2 ^ 970

theorem overflow_pos : 0 < overflow := by decide +kernel

theorem units_infinite :
    units (infinite - 1) + units infinite = 2 * (overflow * Nat.pow 2 1074) := by decide +kernel

/-- In units of which the midpoint has the given number, a quotient below it has a finite magnitude,
and no other. -/
theorem nearestMagnitude_lt_infinite_iff {num den unit : ℕ} (hden : 0 < den) (hunit : 0 < unit)
    (hunits : units (infinite - 1) + units infinite = 2 * (overflow * unit)) :
    nearestMagnitude (num * unit) den < infinite ↔ num < overflow * den := by
  have hrounds := roundsTo_nearestMagnitude (num * unit) hden
  have hscale : num < overflow * den ↔
      2 * (num * unit) < (units (infinite - 1) + units infinite) * den := by
    rw [hunits, Nat.mul_assoc 2, Nat.mul_lt_mul_left (by decide), Nat.mul_right_comm,
      Nat.mul_lt_mul_right hunit]
  rw [hscale]
  generalize nearestMagnitude (num * unit) den = m at hrounds ⊢
  constructor
  · intro h
    rcases Nat.lt_or_eq_of_le (Nat.le_sub_one_of_lt h) with hlt | hlast
    · have hends := Nat.add_lt_add_of_lt_of_le (units_lt_units hlt)
        (units_le_units (Nat.succ_le_of_lt h))
      exact hrounds.upper.trans_lt (Nat.mul_lt_mul_of_pos_right hends hden)
    · -- the last finite magnitude is odd, so the midpoint above it does not belong to it
      have hnext : m + 1 = infinite := by omega
      have hodd : m % 2 = 1 := by rw [hlast]; decide
      have hupper := hrounds.upper_lt hodd
      rwa [hnext, hlast] at hupper
  · intro h
    by_contra hle
    rw [Nat.not_lt] at hle
    have hends := Nat.add_le_add (units_le_units (Nat.sub_le_sub_right hle 1)) (units_le_units hle)
    exact absurd h (Nat.not_lt.2 ((Nat.mul_le_mul_right den hends).trans hrounds.lower))

theorem isFinite_nearest_iff (s : Bool) {num den : ℕ} (hden : 0 < den) :
    (nearest s num den).isFinite = true ↔ num < overflow * den := by
  have hpos (k : ℕ) : 0 < Nat.pow 2 k := Nat.pow_pos (by decide)
  rw [← nearestMagnitude_lt_infinite_iff hden (hpos _) units_infinite, isFinite,
    decide_eq_true_eq, magnitude_nearest]
  omega

end Binary64

namespace Decimal

/-- The number is not below the midpoint from which on the nearest double is an infinity. -/
def Overflows (d : Decimal) : Prop :=
  Binary64.overflow * 10 ^ (-d.exponent).toNat ≤ d.coefficient * 10 ^ d.exponent.toNat

instance (d : Decimal) : Decidable d.Overflows := inferInstanceAs (Decidable (_ ≤ _))

theorem coefficient_lt_ten_pow (d : Decimal) : d.coefficient < 10 ^ (400 + d.coefficient.log2) :=
  calc d.coefficient < 2 ^ (d.coefficient.log2 + 1) := Nat.lt_log2_self
    _ ≤ 2 ^ (400 + d.coefficient.log2) := Nat.pow_le_pow_right (by decide) (by omega)
    _ ≤ 10 ^ (400 + d.coefficient.log2) := Nat.pow_le_pow_left (by decide) _

theorem toBinary64_of_reach_eq (s : Bool) {d : Decimal} {k : ℕ} (h : d.reach = k) :
    d.toBinary64 s = .nearest s (d.coefficient * 10 ^ k) 1 := by
  rw [toBinary64, h, if_pos (Int.natCast_nonneg k), Int.toNat_natCast]
  rfl

theorem toBinary64_of_reach_eq_neg (s : Bool) {d : Decimal} {k : ℕ} (hk : 0 < k)
    (h : d.reach = -k) : d.toBinary64 s = .nearest s d.coefficient (10 ^ k) := by
  rw [toBinary64, h, if_neg (by omega), Int.neg_neg, Int.toNat_natCast]
  rfl

/-- Above the range of exponents everything but zero overflows. -/
theorem isFinite_toBinary64_of_large (s : Bool) {d : Decimal} (h : 400 < d.exponent) :
    (d.toBinary64 s).isFinite = true ↔ ¬ d.Overflows := by
  obtain ⟨k, hk, hpow⟩ : ∃ k : ℕ, k = 400 ∧ Binary64.overflow < 10 ^ k :=
    ⟨400, rfl, by decide +kernel⟩
  have hreach : d.reach = k := by
    unfold reach
    omega
  have hdown : (-d.exponent).toNat = 0 := by omega
  have hup : k ≤ d.exponent.toNat := by omega
  rw [toBinary64_of_reach_eq s hreach, Binary64.isFinite_nearest_iff s Nat.one_pos, Overflows,
    hdown, Nat.not_le, pow_zero, Nat.mul_one]
  rcases Nat.eq_zero_or_pos d.coefficient with hzero | hpos
  · simp only [hzero, Nat.zero_mul]
  · have hlarge {j : ℕ} (hj : k ≤ j) : Binary64.overflow < d.coefficient * 10 ^ j :=
      calc Binary64.overflow < 10 ^ k := hpow
        _ ≤ 10 ^ j := Nat.pow_le_pow_right (by decide) hj
        _ ≤ d.coefficient * 10 ^ j := Nat.le_mul_of_pos_left _ hpos
    exact iff_of_false (hlarge le_rfl).not_gt (hlarge hup).not_gt

/-- Below the range of exponents everything is less than one. -/
theorem isFinite_toBinary64_of_small (s : Bool) {d : Decimal}
    (h : d.exponent < -(400 + d.coefficient.log2 : ℕ)) :
    (d.toBinary64 s).isFinite = true ↔ ¬ d.Overflows := by
  have hreach : d.reach = -(400 + d.coefficient.log2 : ℕ) := by
    unfold reach
    omega
  have hup : d.exponent.toNat = 0 := by omega
  have hdown : 400 + d.coefficient.log2 ≤ (-d.exponent).toNat := by omega
  rw [toBinary64_of_reach_eq_neg s (by omega) hreach,
    Binary64.isFinite_nearest_iff s (Nat.pow_pos (by decide)), Overflows, hup, Nat.not_le,
    pow_zero, Nat.mul_one]
  have hsmall {k : ℕ} (hk : 400 + d.coefficient.log2 ≤ k) :
      d.coefficient < Binary64.overflow * 10 ^ k :=
    calc d.coefficient < 10 ^ (400 + d.coefficient.log2) := d.coefficient_lt_ten_pow
      _ ≤ 10 ^ k := Nat.pow_le_pow_right (by decide) hk
      _ ≤ Binary64.overflow * 10 ^ k := Nat.le_mul_of_pos_left _ Binary64.overflow_pos
  exact iff_of_true (hsmall le_rfl) (hsmall hdown)

/-- The double nearest to a decimal is finite exactly if the decimal does not overflow. -/
theorem isFinite_toBinary64_iff (s : Bool) (d : Decimal) :
    (d.toBinary64 s).isFinite = true ↔ ¬ d.Overflows := by
  by_cases hlarge : 400 < d.exponent
  · exact isFinite_toBinary64_of_large s hlarge
  by_cases hsmall : d.exponent < -(400 + d.coefficient.log2 : ℕ)
  · exact isFinite_toBinary64_of_small s hsmall
  have hreach : d.reach = d.exponent := by
    unfold reach
    omega
  have hpos (k : ℕ) : 0 < Nat.pow 10 k := Nat.pow_pos (by decide)
  rw [toBinary64_of_reach s hreach, Binary64.isFinite_nearest_iff s (hpos _), Overflows, Nat.not_le]
  rfl

end Decimal

/-- The number that the numeral writes is too large for a finite double to be nearest to it. -/
def Numeral.Overflows (n : Numeral) : Prop := n.decimal.Overflows

instance (n : Numeral) : Decidable n.Overflows := inferInstanceAs (Decidable n.decimal.Overflows)

namespace Value

theorem isFinite_ofInt_iff (n : ℤ) :
    (ofInt n).isFinite = true ↔ n.natAbs < Binary64.overflow := by
  unfold ofInt
  split
  · rename_i m hm
    have hlarge : 2 ^ 63 < Binary64.overflow := by decide +kernel
    have hn := toInt_of_int64? hm
    have hlow := m.le_toInt
    have hhigh := m.toInt_lt
    exact iff_of_true rfl (by omega)
  · show (Binary64.nearest _ n.natAbs 1).isFinite = true ↔ _
    rw [Binary64.isFinite_nearest_iff _ Nat.one_pos, Nat.mul_one]

/-- What a numeral names is finite exactly if the numeral does not overflow. -/
theorem isFinite_ofNumeral_iff (n : Numeral) :
    (ofNumeral n).isFinite = true ↔ ¬ n.Overflows := by
  unfold ofNumeral
  split
  · rename_i hinteger
    have hexponent : n.decimal.exponent = 0 := by
      simp_all [Numeral.isInteger, Numeral.decimal]
    have hsize : n.toInt.natAbs = n.decimal.coefficient := by
      unfold Numeral.toInt
      split <;> simp
    rw [isFinite_ofInt_iff, hsize, Numeral.Overflows, Decimal.Overflows, hexponent, Nat.not_le]
    simp
  · exact Decimal.isFinite_toBinary64_iff ..

/-- The least integer that overflows, and the one below it. -/
example : (ofInt (2 ^ 1024 - 2 ^ 970)).isFinite = false ∧
    (ofInt (2 ^ 1024 - 2 ^ 970 - 1)).isFinite = true := by decide +kernel

end Value

end RecordQuery
