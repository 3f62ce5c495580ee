import RecordQuery.Predicate.Reader
import RecordQuery.Proofs.Leaves
import RecordQuery.Proofs.Tokens

/-! What the canonical text of a literal denotes. A boolean is written as an integer and read as
one, and so is a double whose digits end before the point and fit into 64 bits; every other finite
literal denotes itself. A double that is not finite has no literal form: an infinity without sign
and what is not a number are written as words, which are read as paths, and a negative infinity is
not read at all. -/

namespace RecordQuery

namespace Binary64

/-- The 64-bit integer that the text of a finite double spells, if it spells one. -/
def spelledInt? (x : Binary64) : Option Int64 :=
  if x.isFinite && (FloatLayout.plain.numeral x).fraction.isEmpty then
    int64? (FloatLayout.plain.numeral x).toInt
  else none

end Binary64

/-- The literal that the canonical text of a value denotes. -/
def Value.denoted : Value → Value
  | bool b => integer (if b then 1 else 0)
  | float x =>
    match x.spelledInt? with
    | some n => integer n
    | none => float x
  | v => v

/-- An operand with a literal replaced by the one its text denotes. -/
def Operand.denoted : Operand → Operand
  | literal v => literal v.denoted
  | o => o

/-- What the text of an operand is read as. -/
def Operand.reread : Operand → Operand
  | literal (.float x) =>
    if x.isFinite then literal (Value.denoted (.float x)) else path (.ofText x.text)
  | o => o.denoted

namespace Numeral

theorem decimal_coefficient_eq {n : Numeral} (h : n.fraction = []) :
    n.decimal.coefficient = Nat.ofDigitChars 10 n.whole 0 := by
  simp [decimal, h]

theorem natAbs_toInt (n : Numeral) : n.toInt.natAbs = n.decimal.coefficient := by
  unfold toInt
  split <;> omega

theorem negative_eq {n : Numeral} (h : n.negative = true → n.toInt ≠ 0) :
    n.negative = decide (n.toInt < 0) := by
  unfold toInt at h ⊢
  cases hn : n.negative with
  | true => simp [hn] at h ⊢; omega
  | false => simp

theorem Positional.toBinary64_of_whole {n : Numeral} (h : n.Positional) (whole : n.fraction = []) :
    n.toBinary64 = .nearest n.negative n.toInt.natAbs 1 := by
  rw [h.toBinary64_eq (by simp [whole]), natAbs_toInt, decimal_coefficient_eq whole, whole,
    List.append_nil]
  rfl

/-- A whole numeral other than zero is worth what its integer is; a zero may have a sign. -/
theorem Positional.toBinary64_eq_ofInt {n : Numeral} (h : n.Positional) (whole : n.fraction = [])
    (hne : n.toInt ≠ 0) : n.toBinary64 = .ofInt n.toInt := by
  rw [h.toBinary64_of_whole whole, Binary64.ofInt, negative_eq fun _ => hne]

end Numeral

namespace Value

theorem int64?_zero : int64? 0 = some 0 := by decide

theorem denoted_float (x : Binary64) : denoted (.float x) =
    match x.spelledInt? with
    | some n => integer n
    | none => float x := rfl

/-- The numeral of a finite double is read as the literal it denotes. -/
theorem ofNumeral_plain {x : Binary64} (h : x.isFinite = true) :
    ofNumeral (FloatLayout.plain.numeral x) = denoted (.float x) := by
  have hpos := FloatLayout.positional_numeral_plain x
  have hback := FloatLayout.toBinary64_numeral_plain h
  simp only [denoted_float, Binary64.spelledInt?, ofNumeral, Numeral.isInteger, h, hpos.no_exponent,
    hback, Option.isNone_none, Bool.and_true, Bool.true_and]
  cases hwhole : (FloatLayout.plain.numeral x).fraction with
  | cons c s => rfl
  | nil =>
    simp only [List.isEmpty_nil, if_true, ofInt]
    cases hint : int64? (FloatLayout.plain.numeral x).toInt with
    | some n => rfl
    | none =>
      -- zero fits, so the sign of the integer is that of the double
      have hne : (FloatLayout.plain.numeral x).toInt ≠ 0 := by
        intro hzero
        rw [hzero, int64?_zero] at hint
        exact absurd hint (by decide)
      rw [← hpos.toBinary64_eq_ofInt hwhole hne, hback]

end Value

namespace Numeral

/-- A zero after the point changes nothing but the kind of the literal. -/
theorem Positional.toBinary64_pointed {n : Numeral} (h : n.Positional) (whole : n.fraction = []) :
    ({ n with fraction := ['0'] } : Numeral).Positional ∧
      Value.ofNumeral { n with fraction := ['0'] } = .float n.toBinary64 := by
  have hpointed : ({ n with fraction := ['0'] } : Numeral).Positional :=
    { h with fraction_digits := List.all_eq_true.1 (by decide : ['0'].all Char.isDigit) }
  refine ⟨hpointed, congrArg Value.float ?_⟩
  rw [hpointed.toBinary64_eq (by simp), h.toBinary64_of_whole whole, natAbs_toInt,
    decimal_coefficient_eq whole]
  have hdigits : Nat.ofDigitChars 10 (n.whole ++ ['0']) 0 = Nat.ofDigitChars 10 n.whole 0 * 10 := by
    rw [Nat.ofDigitChars_append]
    simp [Nat.ofDigitChars]
    omega
  rw [hdigits]
  exact Binary64.nearest_mul_right _ _ 1 (by decide)

end Numeral

/-! ### Texts of denoted literals -/

namespace FloatLayout

/-- A whole number has no zeros in front. -/
theorem whole_numeral_plain {x : Binary64} (h : x.isFinite = true)
    (whole : (plain.numeral x).fraction = []) :
    (plain.numeral x).whole = Nat.toDigits 10 (plain.numeral x).toInt.natAbs := by
  rw [Numeral.natAbs_toInt, Numeral.decimal_coefficient_eq whole]
  rw [numeral_plain] at whole ⊢
  simp only at whole ⊢
  have hlength := Decimal.length_fraction_positional (Binary64.shortest .up x.magnitude)
  have hvalue := Decimal.ofDigitChars_positional (Binary64.shortest .up x.magnitude)
  rw [whole] at hlength hvalue
  rw [List.append_nil] at hvalue
  have hexp : 0 ≤ (Binary64.shortest .up x.magnitude).exponent := by
    simp only [List.length_nil] at hlength
    omega
  rw [hvalue, Decimal.positional_of_nonneg hexp]
  rcases Nat.eq_zero_or_pos x.magnitude with hzero | hpos
  · rw [hzero, Binary64.shortest_zero]
    rfl
  · exact (Decimal.toDigits_mul_ten_pow (Decimal.coefficient_shortest_pos .up h hpos) _).symm

end FloatLayout

namespace Numeral

/-- An integer is written as the numeral that names it, unless that is a zero with a sign. -/
theorem ofInt_toInt {n : Numeral} (hwhole : n.whole = Nat.toDigits 10 n.toInt.natAbs)
    (hfraction : n.fraction = []) (hexponent : n.exponent = none)
    (hsign : n.negative = decide (n.toInt < 0)) : ofInt n.toInt = n :=
  calc
    ofInt n.toInt = { n with } := by rw [ofInt, ← hwhole, ← hsign, ← hfraction, ← hexponent]
    _ = n := rfl

end Numeral

namespace Binary64

variable {x : Binary64}

theorem spelledInt?_eq_some {n : Int64} (h : x.spelledInt? = some n) : x.isFinite = true ∧
    (FloatLayout.plain.numeral x).fraction = [] ∧
      n.toInt = (FloatLayout.plain.numeral x).toInt := by
  simp only [spelledInt?, Option.ite_none_right_eq_some, Bool.and_eq_true, List.isEmpty_iff] at h
  exact ⟨h.1.1, h.1.2, toInt_of_int64? h.2⟩

theorem eq_zero_of_toInt (h : x.isFinite = true)
    (whole : (FloatLayout.plain.numeral x).fraction = [])
    (hzero : (FloatLayout.plain.numeral x).toInt = 0) : x = zero x.negative := by
  have hback := FloatLayout.toBinary64_numeral_plain h
  rw [(FloatLayout.positional_numeral_plain x).toBinary64_of_whole whole, hzero] at hback
  refine eq_of_parts rfl ?_
  rw [← hback]
  exact magnitude_nearest_zero ..

theorem eq_infinity (hnan : x.isNaN = false) (hfin : x.isFinite = false) :
    x = infinity x.negative := by
  refine eq_of_parts rfl ?_
  show x.magnitude = infinite
  simp only [isNaN, isFinite, decide_eq_false_iff_not] at hnan hfin
  omega

theorem chars_of_isFinite (h : x.isFinite = true) :
    x.chars = (FloatLayout.plain.numeral x).chars := by
  simp [chars, h, isNaN_of_isFinite h]

theorem chars_ofInt_spelledInt? {n : Int64} (h : x.spelledInt? = some n) (hne : x ≠ zero true) :
    (Numeral.ofInt n.toInt).chars = x.chars := by
  obtain ⟨hfin, whole, hn⟩ := spelledInt?_eq_some h
  rw [hn, chars_of_isFinite hfin, Numeral.ofInt_toInt (FloatLayout.whole_numeral_plain hfin whole)
    whole rfl (Numeral.negative_eq ?_)]
  rintro hsign hzero
  have hx := eq_zero_of_toInt hfin whole hzero
  rw [show x.negative = true from hsign] at hx
  exact hne hx

end Binary64

namespace Value

/-- A literal has the text of the one it denotes, unless it is the negative zero. -/
theorem chars_denoted {v : Value} (hne : v ≠ .float (.zero true)) : v.denoted.chars = v.chars := by
  cases v with
  | bool b => cases b <;> decide
  | float x =>
    rw [denoted_float]
    cases hspelled : x.spelledInt? with
    | none => rfl
    | some n => exact Binary64.chars_ofInt_spelledInt? hspelled fun hx => hne (by rw [hx])
  | _ => rfl

end Value

end RecordQuery
