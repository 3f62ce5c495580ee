import RecordQuery.Predicate.Token
import RecordQuery.Proofs.ShortestDigits

/-! Numerals without an exponent: digits before the point, at least one, and digits after it. The
numeral of a finite double is of this kind and is worth the double; written at the front of a text
where no digit, point or letter follows, such a numeral is scanned as it was written. -/

namespace RecordQuery

namespace Decimal

/-! ### Positional layout -/

theorem positional_of_nonneg {d : Decimal} (h : 0 ≤ d.exponent) :
    d.positional = (d.digits ++ List.replicate d.exponent.toNat '0', []) := by
  rw [positional, if_pos h]

/-- Zeros in front make at least one digit more than there are places after the point. -/
def padded (d : Decimal) : List Char :=
  List.replicate ((-d.exponent).toNat + 1 - d.digits.length) '0' ++ d.digits

theorem length_padded (d : Decimal) : (-d.exponent).toNat < d.padded.length := by
  simp only [padded, List.length_append, List.length_replicate]
  omega

theorem positional_of_neg {d : Decimal} (h : d.exponent < 0) : d.positional =
    (d.padded.take (d.padded.length - (-d.exponent).toNat),
      d.padded.drop (d.padded.length - (-d.exponent).toNat)) := by
  rw [positional, if_neg (Int.not_le.2 h), ← List.splitAt_eq]
  rfl

theorem whole_positional_ne_nil (d : Decimal) : d.positional.1 ≠ [] := by
  rcases Int.lt_or_le d.exponent 0 with h | h
  · rw [positional_of_neg h]
    have := d.length_padded
    exact List.ne_nil_of_length_pos (by simp only [List.length_take]; omega)
  · rw [positional_of_nonneg h]
    exact List.append_ne_nil_of_left_ne_nil Nat.toDigits_ne_nil _

theorem length_fraction_positional (d : Decimal) :
    d.positional.2.length = (-d.exponent).toNat := by
  rcases Int.lt_or_le d.exponent 0 with h | h
  · rw [positional_of_neg h]
    have := d.length_padded
    simp only [List.length_drop]
    omega
  · rw [positional_of_nonneg h, Int.toNat_of_nonpos (show -d.exponent ≤ 0 by omega)]
    rfl

theorem isDigit_digits {d : Decimal} : ∀ c ∈ d.digits, c.isDigit = true :=
  fun _ => Nat.isDigit_of_mem_toDigits (by decide) (by decide)

theorem isDigit_positional (d : Decimal) :
    ∀ c ∈ d.positional.1 ++ d.positional.2, c.isDigit = true := by
  intro c hc
  rcases Int.lt_or_le d.exponent 0 with h | h
  · rw [positional_of_neg h, List.take_append_drop, padded, List.mem_append] at hc
    rcases hc with hc | hc
    · rw [List.eq_of_mem_replicate hc]
      rfl
    · exact isDigit_digits c hc
  · rw [positional_of_nonneg h, List.append_nil, List.mem_append] at hc
    rcases hc with hc | hc
    · exact isDigit_digits c hc
    · rw [List.eq_of_mem_replicate hc]
      rfl

theorem ofDigitChars_positional (d : Decimal) :
    Nat.ofDigitChars 10 (d.positional.1 ++ d.positional.2) 0 =
      d.coefficient * Nat.pow 10 d.exponent.toNat := by
  rcases Int.lt_or_le d.exponent 0 with h | h
  · rw [positional_of_neg h, List.take_append_drop, padded, Nat.ofDigitChars_append,
      Nat.ofDigitChars_replicate_zero, Nat.mul_zero, digits, Nat.ofDigitChars_ten_toDigits,
      Int.toNat_of_nonpos h.le]
    exact (Nat.mul_one _).symm
  · rw [positional_of_nonneg h, List.append_nil, Nat.ofDigitChars_append,
      Nat.ofDigitChars_replicate_zero, digits, Nat.ofDigitChars_ten_toDigits, Nat.mul_comm]
    rfl

/-- Zeros at the end multiply by powers of ten. -/
theorem toDigits_mul_ten_pow {n : ℕ} (h : 0 < n) (k : ℕ) :
    Nat.toDigits 10 (n * 10 ^ k) = Nat.toDigits 10 n ++ List.replicate k '0' := by
  induction k with
  | zero => simp
  | succ k ih =>
    have happend := Nat.toDigits_append_toDigits (b := 10) (n := n * 10 ^ k) (d := 0) (by decide)
      (by positivity) (by decide)
    rw [ih, Nat.toDigits_zero, Nat.add_zero] at happend
    rw [List.replicate_succ', ← List.append_assoc, happend]
    congr 1
    ring

end Decimal

namespace Numeral

/-- Digits, and after a point more digits; no exponent. -/
structure Positional (n : Numeral) : Prop where
  whole_ne_nil : n.whole ≠ []
  whole_digits : ∀ c ∈ n.whole, c.isDigit = true
  fraction_digits : ∀ c ∈ n.fraction, c.isDigit = true
  no_exponent : n.exponent = none

theorem positional_ofInt (n : ℤ) : (ofInt n).Positional where
  whole_ne_nil := Nat.toDigits_ne_nil
  whole_digits := fun _ => Nat.isDigit_of_mem_toDigits (by decide) (by decide)
  fraction_digits := by simp [ofInt]
  no_exponent := rfl

/-- The digits as one integer, over the power of ten of the places after the point. -/
theorem Positional.toBinary64_eq {n : Numeral} (h : n.Positional) (hlen : n.fraction.length ≤ 400) :
    n.toBinary64 = .nearest n.negative (Nat.ofDigitChars 10 (n.whole ++ n.fraction) 0)
      (Nat.pow 10 n.fraction.length) := by
  have hdecimal : n.decimal =
      ⟨Nat.ofDigitChars 10 (n.whole ++ n.fraction) 0, -n.fraction.length⟩ := by
    simp [decimal, h.no_exponent]
  rw [toBinary64, hdecimal, Decimal.toBinary64_eq_nearest _ (by simp; omega) (by simp)]
  simp

end Numeral

namespace FloatLayout

theorem numeral_plain (x : Binary64) : plain.numeral x =
    { negative := x.negative
      whole := (Binary64.shortest .up x.magnitude).positional.1
      fraction := (Binary64.shortest .up x.magnitude).positional.2
      exponent := none } := rfl

theorem positional_numeral_plain (x : Binary64) : (plain.numeral x).Positional := by
  have hdigits := (Binary64.shortest .up x.magnitude).isDigit_positional
  rw [numeral_plain]
  exact
    { whole_ne_nil := Decimal.whole_positional_ne_nil _
      whole_digits := fun c hc => hdigits c (List.mem_append_left _ hc)
      fraction_digits := fun c hc => hdigits c (List.mem_append_right _ hc)
      no_exponent := rfl }

/-- A finite double is read back from its plain numeral. -/
theorem toBinary64_numeral_plain {x : Binary64} (h : x.isFinite = true) :
    (plain.numeral x).toBinary64 = x := by
  obtain ⟨low, high⟩ := Binary64.exponent_shortest_bounds .up (of_decide_eq_true h)
  have hshortest := Decimal.toBinary64_shortest .up h
  rw [(positional_numeral_plain x).toBinary64_eq] <;> rw [numeral_plain]
  · rw [Decimal.toBinary64_eq_nearest _ low high] at hshortest
    simpa only [Decimal.ofDigitChars_positional, Decimal.length_fraction_positional]
  · rw [Decimal.length_fraction_positional]
    omega

end FloatLayout

/-! ### Scanning -/

/-- What may follow a part of a predicate: nothing, a blank or a closing parenthesis. -/
def Stops (rest : List Char) : Prop := ∀ c ∈ rest.head?, c ∈ [' ', '\t', '\r', '\n', ')']

theorem stops_nil : Stops [] := by simp [Stops]

theorem stops_cons {c : Char} (s : List Char) (h : c ∈ [' ', '\t', '\r', '\n', ')']) :
    Stops (c :: s) := by
  intro d hd
  obtain rfl : c = d := by simpa using hd
  exact h

theorem stops_space (s : List Char) : Stops (' ' :: s) := stops_cons s (by simp)

/-- A test that no stopping character passes fails at the front of what may follow. -/
theorem Stops.head_false {rest : List Char} (h : Stops rest) (test : Char → Bool)
    (fails : [' ', '\t', '\r', '\n', ')'].all fun c => !test c) :
    ∀ c ∈ rest.head?, test c = false := by
  intro c hc
  simpa using List.all_eq_true.1 fails c (h c hc)

namespace Numeral

/-- What does not go on with a numeral: nothing, or a text that begins with no digit, no point and
no letter of an exponent. -/
structure Ends (rest : List Char) : Prop where
  no_digit : ∀ c ∈ rest.head?, c.isDigit = false
  no_point : ∀ c ∈ rest.head?, c ≠ '.'
  no_exponent : ∀ c ∈ rest.head?, c.toLower ≠ 'e'

theorem ends_of_stops {rest : List Char} (h : Stops rest) : Ends rest where
  no_digit := h.head_false Char.isDigit (by decide)
  no_point c hc := by simpa using h.head_false (· == '.') (by decide) c hc
  no_exponent c hc := by simpa using h.head_false (·.toLower == 'e') (by decide) c hc

theorem scanMinus_of_ne {c : Char} (h : c ≠ '-') (s : List Char) :
    scanMinus (c :: s) = (false, c :: s) := by
  unfold scanMinus
  split
  · rename_i heq
    exact absurd (List.cons.inj heq).1 h
  · rfl

theorem scanFraction_of_no_point {s : List Char} (h : ∀ c ∈ s.head?, c ≠ '.') :
    scanFraction s = ([], s) := by
  unfold scanFraction
  split
  · exact absurd rfl (h '.' (by simp))
  · rfl

theorem scanExponent_of_ends {rest : List Char} (ends : Ends rest) :
    scanExponent rest = (none, rest) := by
  cases rest with
  | nil => rfl
  | cons c s => rw [scanExponent, if_neg (ends.no_exponent c (by simp))]

/-- A point, and the digits after it. -/
def fractionChars (n : Numeral) : List Char := if n.fraction.isEmpty then [] else '.' :: n.fraction

/-- The letter of the exponent, and the exponent. -/
def powerChars (n : Numeral) : List Char := (n.exponent.map exponentChars).getD []

theorem chars_eq (n : Numeral) : n.chars =
    (if n.negative then ['-'] else []) ++ (n.whole ++ (n.fractionChars ++ n.powerChars)) := by
  simp [chars, fractionChars, powerChars]

/-- Digits before the point, at least one, and after it. -/
structure Digital (n : Numeral) : Prop where
  whole_ne_nil : n.whole ≠ []
  whole_digits : ∀ c ∈ n.whole, c.isDigit = true
  fraction_digits : ∀ c ∈ n.fraction, c.isDigit = true

theorem Positional.chars_eq {n : Numeral} (h : n.Positional) :
    n.chars = (if n.negative then ['-'] else []) ++
      (n.whole ++ if n.fraction.isEmpty then [] else '.' :: n.fraction) := by
  simp [chars, h.no_exponent]

theorem Positional.digital {n : Numeral} (h : n.Positional) : n.Digital :=
  ⟨h.whole_ne_nil, h.whole_digits, h.fraction_digits⟩

variable {n : Numeral} {rest : List Char}

/-- What follows the digits goes on with neither a digit nor a point. -/
theorem Ends.power (ends : Ends rest) :
    ∀ c ∈ (n.powerChars ++ rest).head?, c.isDigit = false ∧ c ≠ '.' := by
  intro c hc
  unfold powerChars at hc
  cases hexponent : n.exponent with
  | none =>
    rw [hexponent] at hc
    exact ⟨ends.no_digit c hc, ends.no_point c hc⟩
  | some e =>
    rw [hexponent] at hc
    obtain rfl : 'e' = c := Option.some.inj hc
    decide

theorem Digital.scanMinus_chars (h : n.Digital) (rest : List Char) : scanMinus (n.chars ++ rest) =
    (n.negative, n.whole ++ (n.fractionChars ++ (n.powerChars ++ rest))) := by
  rw [n.chars_eq, List.append_assoc, List.append_assoc, List.append_assoc]
  obtain ⟨c, s, hwhole⟩ := List.exists_cons_of_ne_nil h.whole_ne_nil
  cases n.negative with
  | true => rfl
  | false =>
    have hdigit := h.whole_digits c (by simp [hwhole])
    rw [hwhole]
    refine scanMinus_of_ne ?_ _
    rintro rfl
    exact absurd hdigit (by decide)

theorem Digital.scanDigits_whole (h : n.Digital) (ends : Ends rest) :
    scanDigits (n.whole ++ (n.fractionChars ++ (n.powerChars ++ rest))) =
      (n.whole, n.fractionChars ++ (n.powerChars ++ rest)) := by
  refine scanDigits_append (List.all_eq_true.2 h.whole_digits) fun c hc => ?_
  unfold fractionChars at hc
  cases hfraction : n.fraction with
  | nil =>
    rw [hfraction] at hc
    exact (ends.power c hc).1
  | cons d ds =>
    rw [hfraction] at hc
    obtain rfl : '.' = c := Option.some.inj hc
    decide

theorem Digital.scanFraction_chars (h : n.Digital) (ends : Ends rest) :
    scanFraction (n.fractionChars ++ (n.powerChars ++ rest)) =
      (n.fraction, n.powerChars ++ rest) := by
  have hpower := ends.power (n := n)
  have hscan := scanDigits_append (List.all_eq_true.2 h.fraction_digits) fun c hc => (hpower c hc).1
  unfold fractionChars
  cases hfraction : n.fraction with
  | nil => exact scanFraction_of_no_point fun c hc => (hpower c hc).2
  | cons d ds =>
    rw [hfraction] at hscan
    simp only [List.isEmpty_cons, Bool.false_eq_true, if_false, List.cons_append] at hscan ⊢
    simp only [scanFraction, hscan]

theorem scanExponent_chars (ends : Ends rest) :
    scanExponent (n.powerChars ++ rest) = (n.exponent, rest) := by
  unfold powerChars
  cases n.exponent with
  | none => exact scanExponent_of_ends ends
  | some e =>
    have hdigits : ∀ c ∈ Nat.toDigits 10 e.natAbs, c.isDigit = true :=
      fun _ => Nat.isDigit_of_mem_toDigits (by decide) (by decide)
    have hscan := scanDigits_append (List.all_eq_true.2 hdigits) ends.no_digit
    have hne : Nat.toDigits 10 e.natAbs ≠ [] := Nat.toDigits_ne_nil
    have hvalue := Nat.ofDigitChars_ten_toDigits (n := e.natAbs)
    have hsign : scanSign ((if e < 0 then '-' else '+') :: (Nat.toDigits 10 e.natAbs ++ rest)) =
        (decide (e < 0), Nat.toDigits 10 e.natAbs ++ rest) := by
      split <;> simp_all [scanSign, scanMinus]
    have hletter : 'e'.toLower = 'e' := by decide
    simp only [Option.map_some, Option.getD_some, exponentChars, List.cons_append, scanExponent,
      hletter, if_true, hsign, hscan]
    obtain ⟨d, ds, hcons⟩ := List.exists_cons_of_ne_nil hne
    simp only [hcons] at hvalue ⊢
    rw [hvalue]
    simp only [decide_eq_true_eq]
    congr 2
    split <;> omega

end Numeral

/-- A numeral is scanned as it was written. -/
theorem scanNumeral_chars {n : Numeral} (h : n.Positional) {rest : List Char} (stop : Stops rest) :
    scanNumeral (n.chars ++ rest) = some (n, rest) := by
  have ends := Numeral.ends_of_stops stop
  have hminus := h.digital.scanMinus_chars rest
  have hdigits := h.digital.scanDigits_whole ends
  have hfraction := h.digital.scanFraction_chars ends
  have hexponent := Numeral.scanExponent_chars (n := n) ends
  obtain ⟨negative, whole, fraction, exponent⟩ := n
  obtain ⟨whole_ne_nil, -, -, rfl⟩ := h
  obtain ⟨w, ws, rfl⟩ := List.exists_cons_of_ne_nil whole_ne_nil
  unfold scanNumeral
  rw [hminus]
  simp only [hdigits, hfraction]
  cases fraction with
  | nil => rfl
  | cons f fs => simp only [hexponent]

end RecordQuery
