import RecordQuery.Proofs.Comparison
import RecordQuery.Proofs.Collation
import RecordQuery.Proofs.Reading
import RecordQuery.Record

/-! Integers in records and in formats. Both become values in one way: exact within 64 bits, the
nearest double beyond them. Two integers are therefore compared exactly unless one of them is beyond
64 bits and both have the same nearest double; then that double is compared with itself, and they
are taken for equal. The integers of records fit into 64 bits, with a sign or without one; digits
beyond that are no integer of a record. -/

namespace RecordQuery

theorem int64?_eq_none_iff {n : ℤ} :
    int64? n = none ↔ n < -9223372036854775808 ∨ 9223372036854775808 ≤ n := by
  have hmin : Int64.minValue.toInt = -9223372036854775808 := by decide
  have hmax : Int64.maxValue.toInt = 9223372036854775807 := by decide
  rw [int64?, hmin, hmax]
  split <;> simp <;> omega

namespace Binary64

variable {m n : ℤ}

/-- Doubles of integers are the same if they are the same number: there is no negative zero. -/
theorem ofInt_eq_iff : ofInt m = ofInt n ↔ (ofInt m).scaled = (ofInt n).scaled := by
  refine ⟨congrArg scaled, fun h => ?_⟩
  by_cases hzero : (ofInt m).scaled = 0
  · have hm : m = 0 := eq_zero_of_scaled_ofInt hzero
    have hn : n = 0 := eq_zero_of_scaled_ofInt (h ▸ hzero)
    rw [hm, hn]
  · have hrank := (scaled_eq_iff (ofInt m) (ofInt n)).1 h
    have hmagnitude : (ofInt m).magnitude ≠ 0 := fun h => hzero (scaled_of_magnitude_eq_zero h)
    cases hm : (ofInt m).negative <;> cases hn : (ofInt n).negative <;>
      simp only [rank, hm, hn] at hrank <;>
      exact eq_of_parts (by grind) (by grind)

/-- Doubles of integers compare as the integers do, unless they are the same. -/
theorem compare_nearest (m n : ℤ) : (ofInt m).compare (ofInt n) =
    some (if ofInt m = ofInt n then .eq else Ord.compare m n) := by
  split
  · rename_i heq
    rw [heq, compare_eq_some (isNaN_ofInt n) (isNaN_ofInt n), compare_eq_iff_eq.2 rfl]
  · rename_i hne
    exact compare_ofInt fun h => absurd (ofInt_eq_iff.2 h) hne

end Binary64

namespace Value

variable {m n : ℤ}

/-- Integers that are taken for equal because one of them is beyond 64 bits and both have the same
nearest double. -/
def Conflated (m n : ℤ) : Prop :=
  (int64? m = none ∨ int64? n = none) ∧ Binary64.ofInt m = Binary64.ofInt n

instance : Decidable (Conflated m n) := inferInstanceAs (Decidable (_ ∧ _))

theorem double?_ofInt (n : ℤ) : (ofInt n).double? = some (.ofInt n) := by
  unfold ofInt
  split
  · rename_i k hk
    rw [double?, toInt_of_int64? hk]
  · rfl

theorem int?_ofInt_eq_none_iff : (ofInt n).int? = none ↔ int64? n = none := by
  unfold ofInt
  cases int64? n <;> simp [int?]

/-- Comparison of integers is exact but for those that are conflated. -/
theorem compare_ofInt (m n : ℤ) : (ofInt m).compare (ofInt n) =
    some (if Conflated m n then .eq else Ord.compare m n) := by
  by_cases h : int64? m = none ∨ int64? n = none
  · rw [compare_of_double? (double?_ofInt m) (double?_ofInt n)
      (h.imp int?_ofInt_eq_none_iff.2 int?_ofInt_eq_none_iff.2), Binary64.compare_nearest]
    simp only [Conflated, h, true_and]
  · have hne : ¬ Conflated m n := fun hconflated => h hconflated.1
    simp only [not_or, Option.ne_none_iff_exists'] at h
    obtain ⟨⟨j, hj⟩, k, hk⟩ := h
    rw [if_neg hne, ofInt, hj, ofInt, hk, compare_integers, toInt_of_int64? hj, toInt_of_int64? hk]

theorem relates_equal_ofInt (n m : ℤ) :
    Operator.equal.relates (ofInt n) (ofInt m) = decide (n = m ∨ Conflated n m) := by
  rw [Operator.relates, compare_ofInt, Bool.eq_iff_iff]
  split
  · simp [*]
  · simp [*]

theorem relates_less_ofInt (n m : ℤ) :
    Operator.less.relates (ofInt n) (ofInt m) = decide (n < m ∧ ¬ Conflated n m) := by
  rw [Operator.relates, compare_ofInt, Bool.eq_iff_iff]
  split
  · simp [*]
  · simp [*, compare_lt_iff_lt]

/-- Rounding keeps integers apart that are on two sides of an end of 64 bits and far enough. -/
theorem scaled_ofInt_lt_around_ends :
    (Binary64.ofInt (-9223372036854776833)).scaled <
      (Binary64.ofInt (-9223372036854775808)).scaled ∧
    (Binary64.ofInt (-9223372036854775809)).scaled <
      (Binary64.ofInt (-9223372036854775295)).scaled ∧
    (Binary64.ofInt 9223372036854775295).scaled < (Binary64.ofInt 9223372036854775808).scaled ∧
    (Binary64.ofInt 18446744073709551615).scaled <
      (Binary64.ofInt 18446744073709553665).scaled := by decide +kernel

/-- No integer well within 64 bits is conflated with another one. -/
theorem not_conflated (hm : m.natAbs < 9223372036854775296) : ¬ Conflated m n := by
  rintro ⟨hbeyond, heq⟩
  have hscaled := congrArg Binary64.scaled heq
  obtain ⟨-, habove, hbelow, -⟩ := scaled_ofInt_lt_around_ends
  simp only [int64?_eq_none_iff] at hbeyond
  -- `m` fits, so it is `n` that does not; its double is out of reach for what `m` is rounded to
  have hn : n ≤ -9223372036854775809 ∨ 9223372036854775808 ≤ n := by omega
  rcases hn with hn | hn
  · have := Binary64.scaled_ofInt_le hn
    have := Binary64.scaled_ofInt_le (show -9223372036854775295 ≤ m by omega)
    omega
  · have := Binary64.scaled_ofInt_le hn
    have := Binary64.scaled_ofInt_le (show m ≤ 9223372036854775295 by omega)
    omega

/-- No integer that fits into 64 bits, with a sign or without one, is conflated with one that is
farther from all of them than half the distance between the doubles there. -/
theorem not_conflated_of_far (hlow : -9223372036854775808 ≤ n) (hhigh : n < 18446744073709551616)
    (hm : m < -9223372036854776832 ∨ 18446744073709553664 < m) : ¬ Conflated n m := by
  rintro ⟨-, heq⟩
  have hscaled := congrArg Binary64.scaled heq
  obtain ⟨hbelow, -, -, habove⟩ := scaled_ofInt_lt_around_ends
  rcases hm with hm | hm
  · have := Binary64.scaled_ofInt_le hlow
    have := Binary64.scaled_ofInt_le (show m ≤ -9223372036854776833 by omega)
    omega
  · have := Binary64.scaled_ofInt_le (show n ≤ 18446744073709551615 by omega)
    have := Binary64.scaled_ofInt_le (show 18446744073709553665 ≤ m by omega)
    omega

theorem conflated_comm : Conflated m n ↔ Conflated n m := by
  rw [Conflated, Conflated, or_comm, eq_comm (a := Binary64.ofInt m)]

end Value

/-! ### Literals -/

/-- The numeral of an integer literal: digits, with a minus sign or without. -/
def Numeral.integral (negative : Bool) (digits : List Char) : Numeral where
  negative
  whole := digits
  fraction := []
  exponent := none

section

variable {digits : List Char} {path : KeyPath}

theorem Numeral.positional_integral (negative : Bool) (hne : digits ≠ [])
    (hdigits : ∀ c ∈ digits, c.isDigit = true) : (integral negative digits).Positional where
  whole_ne_nil := hne
  whole_digits := hdigits
  fraction_digits := by simp [integral]
  no_exponent := rfl

theorem Numeral.chars_integral (negative : Bool) (digits : List Char) :
    (integral negative digits).chars = (if negative then ['-'] else []) ++ digits := by
  cases negative <;> simp [integral, chars]

theorem Numeral.toInt_integral (negative : Bool) (digits : List Char) :
    (integral negative digits).toInt =
      if negative then -(Nat.ofDigitChars 10 digits 0 : ℤ) else Nat.ofDigitChars 10 digits 0 := by
  simp [integral, toInt, decimal]

namespace Predicate

theorem parse_integer_comparison (hpath : path.isValid = true) (op : Operator) (negative : Bool)
    (hne : digits ≠ []) (hdigits : ∀ c ∈ digits, c.isDigit = true) :
    parse (path.text ++ (" " ++ op.symbol ++ " ") ++
        String.ofList ((if negative then ['-'] else []) ++ digits)) =
      .ok (comparison (.path path) op
        (.literal (.ofInt (Numeral.integral negative digits).toInt)) false) := by
  have hliteral := Numeral.positional_integral negative hne hdigits
  have hitem := readsAsItem_comparison (.path hpath) (.numeral hliteral) op false
  have htext : path.text ++ (" " ++ op.symbol ++ " ") ++
      String.ofList ((if negative then ['-'] else []) ++ digits) =
        String.ofList (comparisonText path.chars op false
          (Numeral.integral negative digits).chars) := by
    rw [← String.toList_inj]
    simp [comparisonText, KeyPath.text, Numeral.chars_integral]
  rw [htext]
  exact hitem.reads.parse_eq

theorem evaluate_integer_comparison {d : Document} {n : ℤ}
    (hfield : d.follow path.steps = some (.integer n)) (op : Operator) (m : ℤ) :
    (comparison (.path path) op (.literal (.ofInt m)) false).evaluate (Record.resolve d) =
      .ok (op.relates (.ofInt n) (.ofInt m)) := by
  have hresolve : Record.resolve d path = some (.ofInt n) := by
    show (d.follow path.steps).bind Document.scalar? = _
    rw [hfield]
    rfl
  show Except.ok (op.holdsBetween false (Record.resolve d path) _) = _
  rw [hresolve]
  rfl

/-- How integer fields are matched by integer literals of any number of digits. Equality and order
are exact but for integers that are conflated, which count as equal, neither less than the other.
Two that fit into 64 bits with a sign are never conflated, nor are any two of which one is below
`2 ^ 63 - 512` in size, nor is a field with a literal farther out than the fields can reach. -/
theorem matches_integer_field {d : Document} {n : ℤ} (hpath : path.isValid = true)
    (hfield : d.follow path.steps = some (.integer n)) (hrange : -2 ^ 63 ≤ n ∧ n < 2 ^ 64)
    (negative : Bool) (hne : digits ≠ []) (hdigits : ∀ c ∈ digits, c.isDigit = true) :
    let literal := String.ofList ((if negative then ['-'] else []) ++ digits)
    let size : ℤ := Nat.ofDigitChars 10 digits 0
    let m := if negative then -size else size
    (∃ p, parse (path.text ++ " == " ++ literal) = .ok p ∧
      p.evaluate (Record.resolve d) = .ok (decide (n = m ∨ Value.Conflated n m))) ∧
    (∃ p, parse (path.text ++ " < " ++ literal) = .ok p ∧
      p.evaluate (Record.resolve d) = .ok (decide (n < m ∧ ¬ Value.Conflated n m))) ∧
    ((int64? n).isSome → (int64? m).isSome → ¬ Value.Conflated n m) ∧
    (n.natAbs < 2 ^ 63 - 512 ∨ m.natAbs < 2 ^ 63 - 512 → ¬ Value.Conflated n m) ∧
    (m < -2 ^ 63 - 2 ^ 10 ∨ 2 ^ 64 + 2 ^ 11 < m → ¬ Value.Conflated n m) := by
  intro literal size m
  have hm : (Numeral.integral negative digits).toInt = m := Numeral.toInt_integral negative digits
  have hparse (op : Operator) := parse_integer_comparison hpath op negative hne hdigits
  have hevaluate := evaluate_integer_comparison hfield
  rw [hm] at hparse
  have hequal : " " ++ Operator.equal.symbol ++ " " = " == " := by decide
  have hless : " " ++ Operator.less.symbol ++ " " = " < " := by decide
  refine ⟨⟨_, ?_, (hevaluate .equal m).trans ?_⟩, ⟨_, ?_, (hevaluate .less m).trans ?_⟩,
    ?_, ?_, Value.not_conflated_of_far hrange.1 hrange.2⟩
  · rw [← hequal]
    exact hparse .equal
  · rw [Value.relates_equal_ofInt]
  · rw [← hless]
    exact hparse .less
  · rw [Value.relates_less_ofInt]
  · rintro hn hm ⟨hbeyond | hbeyond, -⟩
    · simp [hbeyond] at hn
    · simp [hbeyond] at hm
  · rintro (hn | hm)
    · exact Value.not_conflated hn
    · rw [Value.conflated_comm]
      exact Value.not_conflated hm

/-- Neighbours that share a double beyond 53 bits are told apart, since both fit into 64. Below the
least integer of 64 bits the next one is taken for it. -/
theorem matches_integer_field_neighbours :
    let inside := Document.object [("a", .object [("f", .integer 9007199254740993)])]
    let outside := Document.object [("f", .integer (-9223372036854775808))]
    (∃ p, parse "a.f == 009007199254740992" = .ok p ∧
      p.evaluate (Record.resolve inside) = .ok false) ∧
    ∃ p, parse "f == -9223372036854775809" = .ok p ∧
      p.evaluate (Record.resolve outside) = .ok true := by
  intro inside outside
  have hinside : inside.follow ["a", "f"] = some (.integer 9007199254740993) := rfl
  have houtside : outside.follow ["f"] = some (.integer (-9223372036854775808)) := rfl
  have hdigits : ∀ c ∈ "009007199254740992".toList, c.isDigit = true :=
    List.all_eq_true.1 (by decide)
  have hdigits' : ∀ c ∈ "9223372036854775809".toList, c.isDigit = true :=
    List.all_eq_true.1 (by decide)
  obtain ⟨⟨p, hp, hvalue⟩, -⟩ := matches_integer_field
    (by decide : KeyPath.isValid ⟨["a", "f"]⟩ = true) hinside (by decide) false (by decide) hdigits
  obtain ⟨⟨q, hq, hvalue'⟩, -⟩ := matches_integer_field
    (by decide : KeyPath.isValid ⟨["f"]⟩ = true) houtside (by decide) true (by decide) hdigits'
  exact ⟨⟨p, hp, hvalue.trans (by decide +kernel)⟩, ⟨q, hq, hvalue'.trans (by decide +kernel)⟩⟩

/-- Exactness ends where 64 bits do: the greatest integer within them matches the next one, and is
not less. -/
theorem integer_field_conflated :
    let record := Document.object [("f", .integer 9223372036854775807)]
    (9223372036854775807 : ℤ) < 9223372036854775808 ∧
    (∃ p, parse "f == 9223372036854775808" = .ok p ∧
      p.evaluate (Record.resolve record) = .ok true) ∧
    ∃ p, parse "f < 9223372036854775808" = .ok p ∧
      p.evaluate (Record.resolve record) = .ok false := by
  refine ⟨by decide, ⟨_, by with_unfolding_all rfl, ?_⟩, ⟨_, by with_unfolding_all rfl, ?_⟩⟩
  · decide +kernel
  · decide +kernel

end Predicate

end

end RecordQuery
