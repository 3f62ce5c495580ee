import Mathlib.Data.List.TakeWhile
import RecordQuery.Predicate.Builder
import RecordQuery.Proofs.Denotation

/-! The texts of numbers. What is scanned as a numeral at the front of a text is, taken out of the
text, the text of a number: of the double that the numeral is worth and, if it has no point, of its
integer as long as that has 64 bits. So no number that the grammar finds is refused later on. -/

namespace RecordQuery

namespace Numeral

/-- The parts of a text that spells a numeral. The power of ten may be written in more than one way,
so it is only said what it is scanned as. -/
structure Spelling (n : Numeral) (text : List Char) (power : List Char) : Prop where
  text_eq : text =
    (if n.negative then ['-'] else []) ++ (n.whole ++ (n.fractionChars ++ power))
  digital : n.Digital
  scanExponent_eq : scanExponent power = (n.exponent, [])
  power_head : ∀ c ∈ power.head?, c.toLower = 'e'
  power_nil : n.fraction = [] → power = []

/-! ### The parts of what was scanned -/

theorem scanSign_digit (negative : Bool) {c : Char} (hc : c.isDigit = true) (s : List Char) :
    scanSign ((if negative then ['-'] else []) ++ c :: s) = (negative, c :: s) := by
  cases negative with
  | true => rfl
  | false =>
    have hplus : ∀ r, c :: s = '+' :: r → False := by
      rintro r ⟨⟩
      exact absurd hc (by decide)
    have hminus : c ≠ '-' := by
      rintro rfl
      exact absurd hc (by decide)
    exact (scanSign.eq_2 _ hplus).trans (scanMinus_of_ne hminus s)

theorem eq_of_scanMinus {s rest : List Char} {negative : Bool}
    (h : scanMinus s = (negative, rest)) : s = (if negative then ['-'] else []) ++ rest := by
  unfold scanMinus at h
  split at h
  all_goals
    obtain ⟨rfl, rfl⟩ := Prod.mk.inj h
    rfl

theorem exists_of_scanSign {s rest : List Char} {negative : Bool}
    (h : scanSign s = (negative, rest)) : ∃ sign, s = sign ++ rest ∧
      ∀ c t, c.isDigit = true → scanSign (sign ++ c :: t) = (negative, c :: t) := by
  unfold scanSign at h
  split at h
  · obtain ⟨rfl, rfl⟩ := Prod.mk.inj h
    exact ⟨['+'], rfl, fun _ _ _ => rfl⟩
  · exact ⟨_, eq_of_scanMinus h, fun _ t hc => scanSign_digit _ hc t⟩

theorem eq_of_scanDigits {s rest digits : List Char} (h : scanDigits s = (digits, rest)) :
    s = digits ++ rest ∧ ∀ c ∈ digits, c.isDigit = true := by
  obtain ⟨rfl, rfl⟩ := Prod.mk.inj h
  exact ⟨List.takeWhile_append_dropWhile.symm, fun c hc => List.mem_takeWhile_imp hc⟩

theorem eq_of_scanFraction {s rest fraction : List Char}
    (h : scanFraction s = (fraction, rest)) :
    s = (if fraction.isEmpty then [] else '.' :: fraction) ++ rest ∧
      ∀ c ∈ fraction, c.isDigit = true := by
  unfold scanFraction at h
  split at h
  · split at h
    · obtain ⟨rfl, rfl⟩ := Prod.mk.inj h
      simp
    · rename_i hne
      obtain ⟨rfl, hall⟩ := eq_of_scanDigits h
      cases fraction with
      | nil => exact absurd h (hne _)
      | cons => exact ⟨rfl, hall⟩
  · obtain ⟨rfl, rfl⟩ := Prod.mk.inj h
    simp

theorem scanDigits_all {digits : List Char} (h : ∀ c ∈ digits, c.isDigit = true) :
    scanDigits digits = (digits, []) := by
  have hnil : ∀ c ∈ ([] : List Char).head?, c.isDigit = false := by simp
  simpa using scanDigits_append (List.all_eq_true.2 h) hnil

theorem exists_of_scanExponent {s rest : List Char} {exponent : Option ℤ}
    (h : scanExponent s = (exponent, rest)) : ∃ power, s = power ++ rest ∧
      scanExponent power = (exponent, []) ∧ ∀ c ∈ power.head?, c.toLower = 'e' := by
  unfold scanExponent at h
  split at h
  · obtain ⟨rfl, rfl⟩ := Prod.mk.inj h
    exact ⟨[], rfl, rfl, by simp⟩
  · rename_i e r
    split at h
    · rename_i he
      generalize hsign : scanSign r = found at h
      obtain ⟨negative, r'⟩ := found
      simp only at h
      split at h
      · obtain ⟨rfl, rfl⟩ := Prod.mk.inj h
        exact ⟨[], rfl, rfl, by simp⟩
      · rename_i digits t hne hdigits
        obtain ⟨rfl, rfl⟩ := Prod.mk.inj h
        obtain ⟨sign, rfl, hscan⟩ := exists_of_scanSign hsign
        obtain ⟨rfl, hall⟩ := eq_of_scanDigits hdigits
        obtain ⟨d, ds, rfl⟩ := List.exists_cons_of_ne_nil (fun hnil => hne (hnil ▸ rfl))
        refine ⟨e :: (sign ++ d :: ds), by simp, ?_, by simpa using he⟩
        have hsign' := hscan d ds (hall d (by simp))
        rw [scanExponent, if_pos he]
        simp only [hsign', scanDigits_all hall]
    · obtain ⟨rfl, rfl⟩ := Prod.mk.inj h
      exact ⟨[], rfl, rfl, by simp⟩

theorem exists_spelling {s rest : List Char} {n : Numeral} (h : scanNumeral s = some (n, rest)) :
    ∃ text power, s = text ++ rest ∧ n.Spelling text power := by
  unfold scanNumeral at h
  generalize hminus : scanMinus s = found at h
  obtain ⟨negative, t⟩ := found
  obtain rfl := eq_of_scanMinus hminus
  simp only at h
  split at h
  · exact absurd h (by simp)
  · rename_i whole u hne hdigits
    obtain ⟨rfl, hwhole⟩ := eq_of_scanDigits hdigits
    split at h
    · rename_i v hfraction
      obtain ⟨rfl, rfl⟩ := Prod.mk.inj (Option.some.inj h)
      obtain ⟨rfl, -⟩ := eq_of_scanFraction hfraction
      exact ⟨_, [], by simp [fractionChars],
        { text_eq := rfl
          digital := ⟨hne, hwhole, by simp⟩
          scanExponent_eq := rfl
          power_head := by simp
          power_nil := fun _ => rfl }⟩
    · rename_i fraction v hne' hfraction
      generalize hexponent : scanExponent v = found at h
      obtain ⟨exponent, t⟩ := found
      obtain ⟨rfl, rfl⟩ := Prod.mk.inj (Option.some.inj h)
      obtain ⟨rfl, hpoint⟩ := eq_of_scanFraction hfraction
      obtain ⟨power, rfl, hpower, hhead⟩ := exists_of_scanExponent hexponent
      exact ⟨_, power, by simp [fractionChars],
        { text_eq := rfl
          digital := ⟨hne, hwhole, hpoint⟩
          scanExponent_eq := hpower
          power_head := hhead
          power_nil := fun hnil => absurd hnil hne' }⟩

/-! ### What the text is read as -/

namespace Spelling

variable {n : Numeral} {text power : List Char} (h : n.Spelling text power)

include h

theorem scanSign_text : scanSign text = (n.negative, n.whole ++ (n.fractionChars ++ power)) := by
  obtain ⟨c, s, hwhole⟩ := List.exists_cons_of_ne_nil h.digital.whole_ne_nil
  rw [h.text_eq, hwhole]
  exact scanSign_digit _ (h.digital.whole_digits c (by simp [hwhole])) _

theorem scanDigits_whole : scanDigits (n.whole ++ (n.fractionChars ++ power)) =
    (n.whole, n.fractionChars ++ power) := by
  refine scanDigits_append (List.all_eq_true.2 h.digital.whole_digits) fun c hc => ?_
  unfold fractionChars at hc
  cases hfraction : n.fraction with
  | nil => simp [hfraction, h.power_nil hfraction] at hc
  | cons d ds =>
    rw [hfraction] at hc
    obtain rfl : '.' = c := Option.some.inj hc
    rfl

theorem power_head_not_digit : ∀ c ∈ power.head?, c.isDigit = false := by
  intro c hc
  by_contra hdigit
  rw [Bool.not_eq_false] at hdigit
  have hlower := h.power_head c hc
  rw [toLower_of_not_isAlpha (isAlpha_of_isDigit hdigit)] at hlower
  subst hlower
  exact absurd hdigit (by decide)

/-- What begins with a digit is not a word. -/
theorem map_toLower_ne {word : List Char} (hword : word.head?.any Char.isDigit = false) :
    (n.whole ++ (n.fractionChars ++ power)).map Char.toLower ≠ word := by
  obtain ⟨c, s, hwhole⟩ := List.exists_cons_of_ne_nil h.digital.whole_ne_nil
  have hc := h.digital.whole_digits c (by simp [hwhole])
  rw [hwhole, List.cons_append, List.map_cons, toLower_of_not_isAlpha (isAlpha_of_isDigit hc)]
  rintro rfl
  simp [hc] at hword

theorem ofText?_eq : Binary64.ofText? (String.ofList text) = some n.toBinary64 := by
  have hnan := h.map_toLower_ne (by decide : "nan".toList.head?.any Char.isDigit = false)
  have hinf := h.map_toLower_ne (by decide : "inf".toList.head?.any Char.isDigit = false)
  have hinfinity :=
    h.map_toLower_ne (by decide : "infinity".toList.head?.any Char.isDigit = false)
  have hne := h.digital.whole_ne_nil
  have hpower := h.scanExponent_eq
  unfold Binary64.ofText?
  rw [String.toList_ofList, h.scanSign_text]
  simp only [h.scanDigits_whole]
  rw [if_neg hnan, if_neg (by simp only [hinf, hinfinity]; decide)]
  unfold fractionChars
  obtain ⟨negative, whole, fraction, exponent⟩ := n
  cases fraction with
  | nil =>
    rw [h.power_nil rfl] at hpower ⊢
    simpa [hpower] using hne
  | cons d ds =>
    have hdigits := scanDigits_append (List.all_eq_true.2 h.digital.fraction_digits)
      h.power_head_not_digit
    simp_all

/-- A spelled numeral without a point is an integer and has no exponent. -/
theorem positional (whole : n.fraction = []) : n.Positional := by
  have hexponent := h.scanExponent_eq
  rw [h.power_nil whole] at hexponent
  exact ⟨h.digital.whole_ne_nil, h.digital.whole_digits, h.digital.fraction_digits,
    (congrArg Prod.fst hexponent).symm⟩

theorem int64OfText?_eq (whole : n.fraction = []) : int64OfText? text = int64? n.toInt := by
  have hdigits := h.scanDigits_whole
  have hpositional := h.positional whole
  rw [h.power_nil whole, fractionChars, whole] at hdigits
  obtain ⟨c, s, hwhole⟩ := List.exists_cons_of_ne_nil h.digital.whole_ne_nil
  unfold int64OfText?
  rw [h.scanSign_text, h.power_nil whole, fractionChars, whole]
  simp only [hdigits]
  simp only [List.isEmpty_nil, if_true, List.append_nil, hwhole]
  simp only [toInt, decimal, whole, hwhole, List.append_nil]

end Spelling

end Numeral

namespace ParseTree

/-- A number is made of what was scanned as one. -/
theorem buildOperand_number {s rest : List Char} {n : Numeral}
    (h : scanNumeral s = some (n, rest)) :
    buildOperand (leaf (if n.fraction.isEmpty then .integer else .float)
      (s.take (s.length - rest.length))) = .ok (.literal (.ofNumeral n)) := by
  obtain ⟨text, power, rfl, hspelling⟩ := Numeral.exists_spelling h
  have htext : (text ++ rest).take ((text ++ rest).length - rest.length) = text := by simp
  have hfloat : buildFloat text = .ok n.toBinary64 := by
    rw [buildFloat, hspelling.ofText?_eq]
  rw [htext]
  cases hfraction : n.fraction with
  | cons d ds =>
    have hinteger : n.isInteger = false := by simp [Numeral.isInteger, hfraction]
    simp [buildOperand, rule, ParseTree.text, hfloat, Value.ofNumeral, hinteger]
  | nil =>
    have hpositional := hspelling.positional hfraction
    have hinteger : n.isInteger = true := by
      simp [Numeral.isInteger, hfraction, hpositional.no_exponent]
    have hint64 := hspelling.int64OfText?_eq hfraction
    simp only [List.isEmpty_nil, if_true, buildOperand, rule, ParseTree.text, hint64, hfloat,
      Value.ofNumeral, hinteger, Value.ofInt]
    cases hvalue : int64? n.toInt with
    | some m => rfl
    | none =>
      have hne : n.toInt ≠ 0 := by
        intro hzero
        rw [hzero, Value.int64?_zero] at hvalue
        exact absurd hvalue (by decide)
      rw [← hpositional.toBinary64_eq_ofInt hfraction hne]
      rfl

end ParseTree

end RecordQuery
