import RecordQuery.Binary64.Basic

/-! Rounding a quotient of natural numbers to the nearest double-precision number, a half going to
the even neighbour. The quotient is scaled to units of `2 ^ -1074` and, when it has more than 53
bits there, divided by the power of two that leaves 53 of them; the rounded significand added to
the shift is already the magnitude, since a carry out of the fraction runs into the exponent. -/

namespace RecordQuery

/-- The integer nearest to `num / den`, a half going to the even one. -/
def roundHalfEven (num den : Nat) : Nat :=
  let below := num / den
  let rest := num % den
  if 2 * rest < den then below
  else if den < 2 * rest then below + 1
  else below + below % 2

theorem roundHalfEven_le (num den : Nat) : roundHalfEven num den ≤ num / den + 1 := by
  simp only [roundHalfEven]
  split
  · omega
  · split <;> omega

@[simp] theorem roundHalfEven_one (num : Nat) : roundHalfEven num 1 = num := by
  simp [roundHalfEven, Nat.mod_one]

namespace Binary64

/-- Past the largest finite magnitude everything is infinite. -/
def ofMagnitude (negative : Bool) (magnitude : Nat) : Binary64 where
  negative
  magnitude := min magnitude infinite
  magnitude_lt := Nat.lt_of_le_of_lt (Nat.min_le_right _ _) (by decide)

/-- The double nearest to `num / den`, with the given sign. -/
def nearest (negative : Bool) (num den : Nat) : Binary64 :=
  let value := num * Nat.pow 2 1074
  let shift := (value / den).log2 - 52
  ofMagnitude negative (shift * Nat.pow 2 52 + roundHalfEven value (den * Nat.pow 2 shift))

def ofInt (n : Int) : Binary64 := nearest (n < 0) n.natAbs 1

@[simp] theorem negative_ofMagnitude (s : Bool) (m : Nat) : (ofMagnitude s m).negative = s := rfl

@[simp] theorem negative_nearest (s : Bool) (num den : Nat) :
    (nearest s num den).negative = s := rfl

theorem isNaN_ofMagnitude (s : Bool) (m : Nat) : (ofMagnitude s m).isNaN = false :=
  decide_eq_false (Nat.not_lt.2 (Nat.min_le_right m infinite))

/-- Rounding never leaves the numbers. -/
theorem isNaN_nearest (s : Bool) (num den : Nat) : (nearest s num den).isNaN = false :=
  isNaN_ofMagnitude _ _

example : ofInt (2 ^ 53 + 1) = ofInt (2 ^ 53) := by decide +kernel

example : nearest false 1 3 = ⟨false, 0x3fd5555555555555, by decide⟩ := by decide +kernel

end Binary64

end RecordQuery
