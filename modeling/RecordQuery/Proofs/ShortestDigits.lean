import Mathlib.Tactic.Linarith
import Mathlib.Tactic.Positivity
import Mathlib.Tactic.Ring
import RecordQuery.Decimal.Layout
import RecordQuery.Proofs.Rounding

/-! The digits written for a finite double read back as that double. A grid point that the search
accepts rounds to the magnitude it was sought for; and on the last grid searched the point above
the value is always accepted, since twenty-three powers of ten below the first grid the spacing is
finer than that of the doubles. -/

namespace RecordQuery

namespace Binary64

/-! ### Points of a decimal grid -/

/-- Whether a grid point lies in the interval of a magnitude, both counted in units of `2 ^ -1075`
and stretched to integers. -/
def inside (m spacing stretch point : ℕ) : Bool :=
  if m % 2 = 0 then
    (units (m - 1) + units m) * stretch ≤ point * spacing &&
      point * spacing ≤ (units m + units (m + 1)) * stretch
  else
    (units (m - 1) + units m) * stretch < point * spacing &&
      point * spacing < (units m + units (m + 1)) * stretch

theorem roundsTo_of_inside {m spacing stretch point value : ℕ}
    (h : inside m spacing stretch point = true) (hv : point * spacing = 2 * value) :
    RoundsTo m value stretch := by
  unfold inside at h
  rw [hv] at h
  split at h
  · simp only [Bool.and_eq_true, decide_eq_true_eq] at h
    exact ⟨h.1, h.2, by omega, by omega⟩
  · simp only [Bool.and_eq_true, decide_eq_true_eq] at h
    exact ⟨h.1.le, h.2.le, fun _ => h.1, fun _ => h.2⟩

theorem settle_eq (tie : Tie) (below excess spacing : ℕ) :
    tie.settle below excess spacing = below ∨ tie.settle below excess spacing = below + 1 := by
  unfold Tie.settle
  rcases Nat.mod_two_eq_zero_or_one below with h | h <;> split_ifs <;> cases tie <;> simp [h]

theorem inside_of_gridPoint? {tie : Tie} {m c : ℕ} {e : ℤ} (h : gridPoint? tie m e = some c) :
    inside m (Nat.pow 2 1075 * Nat.pow 10 e.toNat) (Nat.pow 10 (-e).toNat) c = true := by
  unfold gridPoint? interval at h
  simp only at h
  split at h
  · rename_i below above
    rw [Option.some.injEq] at h
    rcases settle_eq tie _ _ _ with hs | hs
    · rw [← h, hs]
      exact below
    · rw [← h, hs]
      exact above
  · rename_i below _
    exact Option.some.inj h ▸ below
  · rename_i _ above
    exact Option.some.inj h ▸ above
  · simp at h

theorem inside_above {m spacing stretch : ℕ} (hpos : 0 < m) (hspacing : 0 < spacing)
    (hstretch : 0 < stretch) (hfine : spacing < ulp m * stretch) :
    inside m spacing stretch (2 * units m * stretch / spacing + 1) = true := by
  have hnext := Nat.lt_div_mul_add (a := 2 * units m * stretch) hspacing
  have hhere := Nat.div_mul_le_self (2 * units m * stretch) spacing
  have hpoint : (2 * units m * stretch / spacing + 1) * spacing =
      2 * units m * stretch / spacing * spacing + spacing := by ring
  have hlow : (units (m - 1) + units m) * stretch < 2 * units m * stretch :=
    Nat.mul_lt_mul_of_pos_right (by have := units_lt_units (show m - 1 < m by omega); omega)
      hstretch
  have hhigh : (units m + units (m + 1)) * stretch = 2 * units m * stretch + ulp m * stretch := by
    rw [units_succ]
    ring
  unfold inside
  rw [hhigh, hpoint]
  split <;> simp only [Bool.and_eq_true, decide_eq_true_eq] <;> omega

/-! ### The last grid -/

theorem two_pow_lt_ten_pow {a e : ℕ} (h : 28 * a ≤ 93 * e) (he : 0 < e) : 2 ^ a < 10 ^ e := by
  refine lt_of_pow_lt_pow_left₀ 28 (Nat.zero_le _) ?_
  calc (2 ^ a) ^ 28 = 2 ^ (28 * a) := by rw [← pow_mul, Nat.mul_comm]
    _ ≤ 2 ^ (93 * e) := Nat.pow_le_pow_right (by decide) h
    _ = (2 ^ 93) ^ e := pow_mul ..
    _ < (10 ^ 28) ^ e := Nat.pow_lt_pow_left (by decide) he.ne'
    _ = (10 ^ e) ^ 28 := by rw [← pow_mul, ← pow_mul, Nat.mul_comm]

theorem ten_pow_le_two_pow {e a : ℕ} (h : 10 * e ≤ 3 * a) : 10 ^ e ≤ 2 ^ a := by
  refine le_of_pow_le_pow_left₀ (n := 3) (by decide) (Nat.zero_le _) ?_
  calc (10 ^ e) ^ 3 = (10 ^ 3) ^ e := by rw [← pow_mul, ← pow_mul, Nat.mul_comm]
    _ ≤ (2 ^ 10) ^ e := Nat.pow_le_pow_left (by decide) e
    _ = 2 ^ (10 * e) := (pow_mul ..).symm
    _ ≤ 2 ^ (3 * a) := Nat.pow_le_pow_right (by decide) h
    _ = (2 ^ a) ^ 3 := by rw [← pow_mul, Nat.mul_comm]

theorem log2_units_le (m : ℕ) : (units m).log2 ≤ m / 2 ^ 52 - 1 + 52 := by
  have hlt : units m < 2 ^ (m / 2 ^ 52 - 1 + 53) := by
    rw [pow_add, Nat.mul_comm]
    by_cases h : m < 2 ^ 52
    · rw [units_of_lt h]
      have := Nat.two_pow_pos (m / 2 ^ 52 - 1)
      nlinarith
    · rw [units_of_le (by omega)]
      exact Nat.mul_lt_mul_of_pos_right (by omega) (ulp_pos m)
  by_cases hzero : units m = 0
  · simp [hzero]
  · have := (Nat.log2_lt hzero).2 hlt
    omega

theorem decade_bounds {m : ℕ} (h : m < infinite) : -323 ≤ decade m ∧ decade m ≤ 311 := by
  have hlog := log2_units_le m
  have hdecade : decade m = ((units m).log2 + 1 - 1074 : ℤ) * 30103 / 100000 + 2 := rfl
  rw [infinite, Nat.pow_eq] at h
  omega

/-- Twenty-three powers of ten below the first grid the spacing is less than an `ulp`. -/
theorem finest_spacing_lt {m : ℕ} (h : m < infinite) :
    Nat.pow 2 1075 * Nat.pow 10 (decade m - 23).toNat <
      ulp m * Nat.pow 10 (-(decade m - 23)).toNat := by
  have hlog := log2_units_le m
  have hdecade : decade m = ((units m).log2 + 1 - 1074 : ℤ) * 30103 / 100000 + 2 := rfl
  have hE : m / 2 ^ 52 - 1 ≤ 2045 := by
    rw [infinite, Nat.pow_eq] at h
    omega
  simp only [Nat.pow_eq, ulp]
  generalize hp : (1075 : ℕ) = p
  generalize m / 2 ^ 52 - 1 = E at *
  generalize (units m).log2 = L at *
  rcases Int.lt_or_le (decade m - 23) 0 with hneg | hpos
  · obtain ⟨k, hk⟩ : ∃ k : ℕ, -(decade m - 23) = k := ⟨_, (Int.toNat_of_nonneg (by omega)).symm⟩
    rw [hk, Int.toNat_of_nonpos hneg.le, Int.toNat_natCast, pow_zero, Nat.mul_one]
    rcases Nat.lt_or_ge E p with hE' | hE'
    · rw [show p = E + (p - E) by omega, pow_add]
      exact Nat.mul_lt_mul_of_pos_left (two_pow_lt_ten_pow (by omega) (by omega))
        (Nat.two_pow_pos E)
    · have hk' : 1 < 10 ^ k := Nat.one_lt_pow (by omega) (by decide)
      exact (Nat.pow_le_pow_right (by decide) hE').trans_lt
        (lt_mul_of_one_lt_right (Nat.two_pow_pos E) hk')
  · obtain ⟨k, hk⟩ : ∃ k : ℕ, decade m - 23 = k := ⟨_, (Int.toNat_of_nonneg hpos).symm⟩
    rw [hk, Int.toNat_natCast, Int.toNat_of_nonpos (by omega), pow_zero, Nat.mul_one]
    have hroom : 10 * k ≤ 3 * (E - 1 - p) ∧ p < E := by omega
    calc 2 ^ p * 10 ^ k ≤ 2 ^ p * 2 ^ (E - 1 - p) :=
          Nat.mul_le_mul_left _ (ten_pow_le_two_pow hroom.1)
      _ = 2 ^ (E - 1) := by rw [← pow_add, Nat.add_sub_cancel' (by omega)]
      _ < 2 ^ E := Nat.pow_lt_pow_right (by decide) (by omega)

theorem gridPoint?_isSome {m : ℕ} (tie : Tie) (hpos : 0 < m) (h : m < infinite) :
    (gridPoint? tie m (decade m - 23)).isSome := by
  have habove := inside_above hpos (by simp only [Nat.pow_eq]; positivity)
    (by simp only [Nat.pow_eq]; positivity) (finest_spacing_lt h)
  unfold gridPoint? interval
  simp only
  split
  · rfl
  · rfl
  · rfl
  · rename_i hnone
    exact absurd (habove.symm.trans hnone) (by decide)

/-- The search succeeds, and what it finds is a grid point of one of its grids. -/
theorem exists_shortest {m : ℕ} (tie : Tie) (hpos : 0 < m) (h : m < infinite) :
    ∃ step : ℕ, step < 24 ∧ (shortest tie m).exponent = decade m - step ∧
      gridPoint? tie m (decade m - step) = some (shortest tie m).coefficient := by
  rw [shortest, if_neg hpos.ne']
  simp only
  cases hfound : (List.range 24).findSome? fun (step : ℕ) =>
      (gridPoint? tie m (decade m - step)).map fun coefficient =>
        (⟨coefficient, decade m - step⟩ : Decimal) with
  | none =>
    have := List.findSome?_eq_none_iff.1 hfound 23 (by decide)
    have hsome := gridPoint?_isSome tie hpos h
    simp_all
  | some d =>
    obtain ⟨step, hstep, hd⟩ := List.exists_of_findSome?_eq_some hfound
    obtain ⟨c, hc, rfl⟩ := Option.map_eq_some_iff.1 hd
    exact ⟨step, List.mem_range.1 hstep, rfl, hc⟩

theorem half_unit : Nat.pow 2 1075 = 2 * Nat.pow 2 1074 := by
  simp only [Nat.pow_eq, show (1075 : ℕ) = 1074 + 1 from rfl, pow_succ' 2 1074]

theorem exponent_shortest_bounds (tie : Tie) {m : ℕ} (h : m < infinite) :
    -400 ≤ (shortest tie m).exponent ∧ (shortest tie m).exponent ≤ 400 := by
  rcases Nat.eq_zero_or_pos m with rfl | hpos
  · simp
  · obtain ⟨step, hstep, hexp, -⟩ := exists_shortest tie hpos h
    have := decade_bounds h
    omega

end Binary64

namespace Decimal

/-! ### Reading the digits -/

/-- Within reach a decimal is rounded as the quotient it is. -/
theorem toBinary64_of_reach (s : Bool) {d : Decimal} (hreach : d.reach = d.exponent) :
    d.toBinary64 s = .nearest s (d.coefficient * Nat.pow 10 d.exponent.toNat)
      (Nat.pow 10 (-d.exponent).toNat) := by
  unfold toBinary64
  rw [hreach]
  split
  · rename_i h
    rw [Int.toNat_of_nonpos (show -d.exponent ≤ 0 by omega)]
  · rename_i h
    rw [Int.toNat_of_nonpos (show d.exponent ≤ 0 by omega)]
    simp only [Nat.pow_eq, pow_zero, Nat.mul_one]

theorem toBinary64_eq_nearest (s : Bool) {d : Decimal} (low : -400 ≤ d.exponent)
    (high : d.exponent ≤ 400) :
    d.toBinary64 s = .nearest s (d.coefficient * Nat.pow 10 d.exponent.toNat)
      (Nat.pow 10 (-d.exponent).toNat) := by
  refine toBinary64_of_reach s ?_
  unfold reach
  omega

/-- The shortest digits of a finite double are nearest to it. -/
theorem toBinary64_shortest (tie : Tie) {x : Binary64} (h : x.isFinite = true) :
    (Binary64.shortest tie x.magnitude).toBinary64 x.negative = x := by
  have hfin : x.magnitude < Binary64.infinite := of_decide_eq_true h
  obtain ⟨low, high⟩ := Binary64.exponent_shortest_bounds tie hfin
  rw [toBinary64_eq_nearest _ low high]
  refine Binary64.nearest_eq_of_roundsTo (Nat.pow_pos (by decide)) hfin.le ?_
  rcases Nat.eq_zero_or_pos x.magnitude with hzero | hpos
  · rw [hzero, Binary64.shortest_zero]
    simp only [Nat.zero_mul]
    exact ⟨by simp [Binary64.units], Nat.zero_le _, by simp, by simp⟩
  · obtain ⟨step, -, hexp, hpoint⟩ := Binary64.exists_shortest tie hpos hfin
    rw [hexp]
    refine Binary64.roundsTo_of_inside (Binary64.inside_of_gridPoint? hpoint) ?_
    rw [Binary64.half_unit]
    generalize Nat.pow 2 1074 = unit
    ring

theorem coefficient_shortest_pos (tie : Tie) {x : Binary64} (h : x.isFinite = true)
    (hpos : 0 < x.magnitude) : 0 < (Binary64.shortest tie x.magnitude).coefficient := by
  obtain ⟨low, high⟩ := Binary64.exponent_shortest_bounds tie (of_decide_eq_true h)
  have hback := toBinary64_shortest tie h
  rw [toBinary64_eq_nearest _ low high] at hback
  refine Nat.pos_of_ne_zero fun hzero => ?_
  rw [hzero, Nat.zero_mul] at hback
  have := congrArg Binary64.magnitude hback
  rw [Binary64.magnitude_nearest_zero] at this
  omega

end Decimal

end RecordQuery
