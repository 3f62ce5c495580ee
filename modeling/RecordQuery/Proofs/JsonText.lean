import RecordQuery.Json.Reader
import RecordQuery.Proofs.Chains
import RecordQuery.Proofs.Numerals
import RecordQuery.Proofs.Spelling

/-! Printed JSON is read back. What is printed is built from spelled strings, from numerals without
zeros in front, and from arrays and structures of such parts; each of them is scanned as it was
written, whatever may follow it inside an array or an object. -/

namespace RecordQuery

/-! ### Numerals without zeros in front -/

namespace Numeral

/-- No zero in front of another digit. -/
def Unpadded (n : Numeral) : Prop := ∀ c s, n.whole ≠ '0' :: c :: s

/-- By induction along the division by ten: the leading digit is that of the quotient. -/
theorem toDigits_ne_zero_cons {n : ℕ} (h : 0 < n) (s : List Char) :
    Nat.toDigits 10 n ≠ '0' :: s := by
  induction n using Nat.strong_induction_on generalizing s with
  | _ n ih =>
    rcases Nat.lt_or_ge n 10 with hlt | hge
    · have hdigit : ∀ d < 10, 0 < d → Nat.digitChar d ≠ '0' := by decide
      rw [Nat.toDigits_of_lt_base hlt]
      exact fun heq => hdigit n hlt h (List.cons.inj heq).1
    · rw [Nat.toDigits_of_base_le (by decide) hge]
      obtain ⟨d, ds, hcons⟩ := List.exists_cons_of_ne_nil
        (Nat.toDigits_ne_nil : Nat.toDigits 10 (n / 10) ≠ [])
      rw [hcons]
      intro heq
      obtain rfl := (List.cons.inj heq).1
      exact ih (n / 10) (by omega) (by omega) ds hcons

theorem unpadded_ofInt (n : ℤ) : (ofInt n).Unpadded := by
  intro c s
  rcases Nat.eq_zero_or_pos n.natAbs with hzero | hpos
  · rw [ofInt, hzero]
    simp
  · exact toDigits_ne_zero_cons hpos _

end Numeral

namespace Decimal

/-- In positional layout zeros stand in front only to make one digit before the point. -/
theorem whole_positional_unpadded {d : Decimal} (h : d = ⟨0, 0⟩ ∨ 0 < d.coefficient) (c : Char)
    (s : List Char) : d.positional.1 ≠ '0' :: c :: s := by
  rcases h with rfl | hpos
  · simp [positional, digits]
  · have hdigits (s : List Char) : d.digits ≠ '0' :: s := Numeral.toDigits_ne_zero_cons hpos s
    rcases Int.lt_or_le d.exponent 0 with hneg | hnonneg
    · rw [positional_of_neg hneg]
      intro heq
      simp only at heq
      have hlength : (-d.exponent).toNat + 1 < d.padded.length := by
        have := congrArg List.length heq
        simp only [List.length_take, List.length_cons] at this
        omega
      have hpadded : d.padded = d.digits := by
        rw [padded, List.length_append, List.length_replicate] at hlength
        rw [padded, show (-d.exponent).toNat + 1 - d.digits.length = 0 by omega]
        rfl
      have htake := List.take_append_drop (d.padded.length - (-d.exponent).toNat) d.padded
      rw [heq, hpadded] at htake
      exact hdigits _ htake.symm
    · rw [positional_of_nonneg hnonneg]
      have hne : d.digits ≠ [] := Nat.toDigits_ne_nil
      obtain ⟨x, xs, hcons⟩ := List.exists_cons_of_ne_nil hne
      rw [hcons]
      intro heq
      obtain rfl := (List.cons.inj heq).1
      exact hdigits xs hcons

end Decimal

namespace FloatLayout

theorem numeral_persisted {x : Binary64} (h : x.isFinite = true) :
    (persisted.numeral x).Digital ∧ (persisted.numeral x).Unpadded := by
  have hshortest : Binary64.shortest .even x.magnitude = ⟨0, 0⟩ ∨
      0 < (Binary64.shortest .even x.magnitude).coefficient := by
    rcases Nat.eq_zero_or_pos x.magnitude with hzero | hpos
    · exact .inl (by rw [hzero, Binary64.shortest_zero])
    · exact .inr (Decimal.coefficient_shortest_pos .even h hpos)
  unfold numeral
  simp only [show persisted.tie = .even from rfl]
  generalize Binary64.shortest .even x.magnitude = d at hshortest ⊢
  have hdigits := d.isDigit_positional
  split
  · refine ⟨⟨d.whole_positional_ne_nil, fun c hc => hdigits c (List.mem_append_left _ hc), ?_⟩,
      Decimal.whole_positional_unpadded hshortest⟩
    intro c hc
    simp only at hc
    split at hc
    · obtain rfl := List.mem_singleton.1 hc
      decide
    · exact hdigits c (List.mem_append_right _ hc)
  · have hne : d.digits ≠ [] := Nat.toDigits_ne_nil
    obtain ⟨y, ys, hcons⟩ := List.exists_cons_of_ne_nil hne
    have hall := Decimal.isDigit_digits (d := d)
    rw [hcons] at hall ⊢
    exact ⟨⟨by simp, by simpa using hall y (by simp), fun c hc => hall c (by simpa using .inr hc)⟩,
      by simp [Numeral.Unpadded]⟩

end FloatLayout

namespace Json

open Text (isBlank skipBlank Visible TakesAll)

/-- What may follow a value: nothing, or what goes on with an array or an object or ends it. -/
def Follows (rest : List Char) : Prop := ∀ c ∈ rest.head?, c ∈ [',', ']', '}']

theorem follows_cons {c : Char} (s : List Char) (h : c ∈ [',', ']', '}']) : Follows (c :: s) := by
  intro d hd
  obtain rfl : c = d := Option.some.inj hd
  exact h

theorem Follows.ends {rest : List Char} (h : Follows rest) : Numeral.Ends rest := by
  have hall : ∀ c ∈ [',', ']', '}'], c.isDigit = false ∧ c ≠ '.' ∧ c.toLower ≠ 'e' := by
    simp only [List.forall_mem_cons, List.not_mem_nil, false_imp_iff, implies_true, and_true]
    decide
  exact ⟨fun c hc => (hall c (h c hc)).1, fun c hc => (hall c (h c hc)).2.1,
    fun c hc => (hall c (h c hc)).2.2⟩

theorem scanNumber_chars {n : Numeral} (digital : n.Digital) (unpadded : n.Unpadded)
    {rest : List Char} (follows : Follows rest) :
    scanNumber (n.chars ++ rest) = some (number n, rest) := by
  have ends := follows.ends
  have hminus := digital.scanMinus_chars rest
  have hdigits := digital.scanDigits_whole ends
  have hfraction := digital.scanFraction_chars ends
  have hexponent := Numeral.scanExponent_chars (n := n) ends
  have hne := digital.whole_ne_nil
  obtain ⟨negative, whole, fraction, exponent⟩ := n
  unfold scanNumber
  simp only [hminus, hdigits]
  split
  · rename_i heq
    exact absurd (Prod.mk.inj heq).1 hne
  · rename_i heq
    exact absurd (Prod.mk.inj heq).1 (unpadded _ _)
  · rename_i heq
    obtain ⟨rfl, rfl⟩ := Prod.mk.inj heq
    simp only [hfraction, hexponent]

/-! ### Arrays and objects -/

theorem after_self (c : Char) (s : List Char) : after c (c :: s) = some s := if_pos rfl

theorem after_of_ne {c d : Char} (h : d ≠ c) (s : List Char) : after c (d :: s) = none := if_neg h

theorem separates_comma : Text.Separates (after ',') [','] := fun s => ⟨s, rfl, rfl⟩

/-- Written items with commas between them are taken as the items, up to the closing bracket. -/
theorem scanEnclosed_commas {α : Type} {closing : Char} {item : Scan α} {ts : List (List Char)}
    {found : List α} {rest : List Char} (hclosing : closing ∈ [']', '}'])
    (takes : TakesAll item Follows (commas ts ++ closing :: rest).length ts found)
    (opens : ∀ t ∈ ts, ∀ c ∈ t.head?, c ≠ closing) :
    scanEnclosed closing item (commas ts ++ closing :: rest) = some (found, rest) := by
  have hfacts : ∀ c ∈ [']', '}'], isBlank c = false ∧ c ≠ ',' ∧ c ∈ [',', ']', '}'] := by
    simp only [List.forall_mem_cons, List.not_mem_nil, false_imp_iff, implies_true, and_true]
    decide
  obtain ⟨hblank, hcomma, hmem⟩ := hfacts closing hclosing
  have hskip : skipBlank (closing :: rest) = closing :: rest := Text.skipBlank_of_not_blank hblank
  have hends : after ',' (skipBlank (closing :: rest)) = none := by
    rw [hskip, after_of_ne hcomma]
  cases takes with
  | nil =>
    show scanEnclosed closing item (closing :: rest) = _
    rw [scanEnclosed, hskip, after_self]
  | @cons t a ts found ht hts =>
    have hfirst : after closing (skipBlank (commas (t :: ts) ++ closing :: rest)) = none := by
      obtain ⟨c, s, rfl, hc⟩ := ht.1
      have hne : c ≠ closing := opens (c :: s) (by simp) c (by simp)
      rw [commas, Text.intercalate_cons, List.append_assoc, List.cons_append,
        Text.skipBlank_of_not_blank hc, after_of_ne hne]
    have hvisible : skipBlank (commas (t :: ts) ++ closing :: rest) =
        commas (t :: ts) ++ closing :: rest := by
      rw [commas, Text.intercalate_cons, List.append_assoc, ht.1.skipBlank_append]
    have hchain := Text.scanChain_intercalate (.cons ht hts) separates_comma
      (fun s => follows_cons s (by simp)) (follows_cons rest hmem) hends le_rfl
    rw [← commas] at hchain
    rw [scanEnclosed, hfirst, hvisible]
    simp only [hchain, Option.bind_eq_bind, Option.bind_some, hskip, after_self]
    rfl

theorem itemChars_eq (items : List Json) : itemChars items = items.map chars := by
  induction items with
  | nil => rfl
  | cons j items ih => rw [itemChars, ih, List.map_cons]

theorem fieldChars_eq (fields : List (List Char × Json)) :
    fieldChars fields = fields.map fun (name, j) => quoted name ++ ':' :: j.chars := by
  induction fields with
  | nil => rfl
  | cons field fields ih => rw [fieldChars, ih, List.map_cons]

/-- A scanner of enclosed values that does what the scanner of values does on texts below a
length. -/
def scanBelow (length : ℕ) : Scan Json := fun r => if r.length < length then scanValue r else none

theorem scanValue_array (s : List Char) : scanValue ('[' :: s) =
    (scanEnclosed ']' (scanBelow ('[' :: s).length) s).map (Prod.map array id) := by
  rw [scanValue]
  rfl

theorem scanValue_object (s : List Char) : scanValue ('{' :: s) =
    (scanEnclosed '}' (scanField (scanBelow ('{' :: s).length)) s).map (Prod.map object id) := by
  rw [scanValue]
  rfl

theorem scanValue_string (s : List Char) :
    scanValue ('"' :: s) = (scanSpelling .any s).map (Prod.map string id) := by
  rw [scanValue]

/-- The front of a number is no other character than a sign or a digit. -/
theorem ne_of_opensNumber {c d : Char} (h : c = '-' ∨ c.isDigit = true)
    (hd : d ≠ '-' ∧ d.isDigit = false) : c ≠ d := by
  rintro rfl
  rcases h with rfl | h
  · exact hd.1 rfl
  · exact absurd h (by simp [hd.2])

theorem scanValue_of_number {c : Char} (h : c = '-' ∨ c.isDigit = true) (s : List Char) :
    scanValue (c :: s) = scanNumber (c :: s) := by
  rw [scanValue] <;> exact fun _ heq => ne_of_opensNumber h (by decide) (List.cons.inj heq).1

/-! ### Values -/

/-- The JSON that is written: strings and names are spelled, numerals have no zeros in front. -/
inductive Written : Json → Prop
  | null : Written null
  | bool {b} : Written (bool b)
  | number {n} : n.Digital → n.Unpadded → Written (number n)
  | text {s} : Written (text s)
  | array {items} : (∀ j ∈ items, Written j) → Written (array items)
  | struct {fields} : (∀ field ∈ fields, Written field.2) → Written (struct fields)

/-- A value that is taken off the front of a text, whatever may follow it. Its own text begins with
neither a blank nor the end of an array. -/
structure Taken (j : Json) : Prop where
  opens : ∃ c s, j.chars = c :: s ∧ isBlank c = false ∧ c ≠ ']'
  scan_eq : ∀ rest, Follows rest → scanValue (j.chars ++ rest) = some (j, rest)

theorem Taken.visible {j : Json} (h : j.Taken) : Visible j.chars := by
  obtain ⟨c, s, hchars, hc, -⟩ := h.opens
  exact ⟨c, s, hchars, hc⟩

theorem Taken.head_ne {j : Json} (h : j.Taken) : ∀ c ∈ j.chars.head?, c ≠ ']' := by
  obtain ⟨d, s, hchars, -, hd⟩ := h.opens
  rw [hchars]
  intro c hc
  obtain rfl : d = c := Option.some.inj hc
  exact hd

theorem Taken.scanBelow_eq {j : Json} (h : j.Taken) {rest : List Char} (follows : Follows rest)
    {length : ℕ} (hlength : (j.chars ++ rest).length < length) :
    scanBelow length (j.chars ++ rest) = some (j, rest) := by
  rw [scanBelow, if_pos hlength, h.scan_eq rest follows]

theorem taken_null : null.Taken := by
  refine ⟨⟨'n', _, rfl, rfl, by decide⟩, fun rest _ => ?_⟩
  show scanValue ('n' :: 'u' :: 'l' :: 'l' :: rest) = _
  rw [scanValue]

theorem taken_bool (b : Bool) : (bool b).Taken := by
  cases b with
  | true =>
    refine ⟨⟨'t', _, rfl, rfl, by decide⟩, fun rest _ => ?_⟩
    show scanValue ('t' :: 'r' :: 'u' :: 'e' :: rest) = _
    rw [scanValue]
  | false =>
    refine ⟨⟨'f', _, rfl, rfl, by decide⟩, fun rest _ => ?_⟩
    show scanValue ('f' :: 'a' :: 'l' :: 's' :: 'e' :: rest) = _
    rw [scanValue]

theorem taken_number {n : Numeral} (digital : n.Digital) (unpadded : n.Unpadded) :
    (number n).Taken := by
  obtain ⟨c, s, hchars, hc⟩ : ∃ c s, n.chars = c :: s ∧ (c = '-' ∨ c.isDigit = true) := by
    obtain ⟨d, ds, hwhole⟩ := List.exists_cons_of_ne_nil digital.whole_ne_nil
    rw [n.chars_eq, hwhole]
    cases n.negative with
    | true => exact ⟨_, _, rfl, .inl rfl⟩
    | false => exact ⟨_, _, rfl, .inr (digital.whole_digits d (by simp [hwhole]))⟩
  have hblank : isBlank c = false := by
    have hne (d : Char) (hd : d ≠ '-' ∧ d.isDigit = false) : c ≠ d := ne_of_opensNumber hc hd
    simp [isBlank, hne ' ' (by decide), hne '\t' (by decide), hne '\r' (by decide),
      hne '\n' (by decide)]
  refine ⟨⟨c, s, hchars, hblank, ne_of_opensNumber hc (by decide)⟩, fun rest follows => ?_⟩
  have hscan := scanNumber_chars digital unpadded follows
  rw [chars]
  rw [hchars] at hscan ⊢
  rw [List.cons_append, scanValue_of_number hc, ← List.cons_append, hscan]

theorem taken_text (s : String) : (text s).Taken := by
  refine ⟨⟨'"', _, rfl, rfl, by decide⟩, fun rest _ => ?_⟩
  have happend : (text s).chars ++ rest = '"' :: (spell s ++ '"' :: rest) := by
    simp [text, chars, quoted]
  rw [happend, scanValue_string, scanSpelling_spell]
  rfl

theorem taken_array {items : List Json} (h : ∀ j ∈ items, j.Taken) : (array items).Taken := by
  refine ⟨⟨'[', _, rfl, rfl, by decide⟩, fun rest _ => ?_⟩
  have happend : (array items).chars ++ rest =
      '[' :: (commas (items.map chars) ++ ']' :: rest) := by
    simp [chars, itemChars_eq]
  have htakes : TakesAll (scanBelow ('[' :: (commas (items.map chars) ++ ']' :: rest)).length)
      Follows (commas (items.map chars) ++ ']' :: rest).length (items.map chars) items := by
    rw [TakesAll, List.forall₂_map_left_iff, List.forall₂_same]
    exact fun j hj => ⟨(h j hj).visible, fun rest follows hlength =>
      (h j hj).scanBelow_eq follows (Nat.lt_succ_of_le hlength)⟩
  have hopens : ∀ t ∈ items.map chars, ∀ c ∈ t.head?, c ≠ ']' := by
    simp only [List.forall_mem_map]
    exact fun j hj => (h j hj).head_ne
  rw [happend, scanValue_array, scanEnclosed_commas (by simp) htakes hopens]
  rfl

/-- A field of a structure in the text of an object. -/
def memberChars (field : String × Json) : List Char :=
  quoted (spell field.1) ++ ':' :: field.2.chars

theorem scanField_chars {field : String × Json} (h : field.2.Taken) {rest : List Char}
    (follows : Follows rest) {length : ℕ} (hlength : (memberChars field ++ rest).length ≤ length) :
    scanField (scanBelow length) (memberChars field ++ rest) =
      some ((spell field.1, field.2), rest) := by
  have happend : memberChars field ++ rest =
      '"' :: (spell field.1 ++ '"' :: ':' :: (field.2.chars ++ rest)) := by
    simp [memberChars, quoted]
  rw [happend] at hlength ⊢
  have hvalue : scanBelow length (field.2.chars ++ rest) = some (field.2, rest) := by
    refine h.scanBelow_eq follows ?_
    simp only [List.length_cons, List.length_append] at hlength ⊢
    omega
  simp only [scanField, scanString, scanSpelling_spell, Option.bind_eq_bind, Option.bind_some]
  rw [Text.skipBlank_of_not_blank (by decide), after_self, Option.bind_some,
    h.visible.skipBlank_append, hvalue]
  rfl

theorem taken_struct {fields : List (String × Json)} (h : ∀ field ∈ fields, field.2.Taken) :
    (struct fields).Taken := by
  refine ⟨⟨'{', _, rfl, rfl, by decide⟩, fun rest _ => ?_⟩
  have happend : (struct fields).chars ++ rest =
      '{' :: (commas (fields.map memberChars) ++ '}' :: rest) := by
    simp only [struct, chars, fieldChars_eq, List.map_map, List.cons_append, List.append_assoc,
      List.nil_append]
    rfl
  have htakes : TakesAll
      (scanField (scanBelow ('{' :: (commas (fields.map memberChars) ++ '}' :: rest)).length))
      Follows (commas (fields.map memberChars) ++ '}' :: rest).length (fields.map memberChars)
      (fields.map fun field => (spell field.1, field.2)) := by
    rw [TakesAll, List.forall₂_map_left_iff, List.forall₂_map_right_iff, List.forall₂_same]
    exact fun field hfield => ⟨⟨'"', _, rfl, rfl⟩, fun rest follows hlength =>
      scanField_chars (h field hfield) follows (Nat.le_succ_of_le hlength)⟩
  have hopens : ∀ t ∈ fields.map memberChars, ∀ c ∈ t.head?, c ≠ '}' := by
    simp only [List.forall_mem_map]
    intro field _ c hc
    obtain rfl : '"' = c := Option.some.inj hc
    decide
  rw [happend, scanValue_object, scanEnclosed_commas (by simp) htakes hopens]
  rfl

theorem Written.taken {j : Json} (h : j.Written) : j.Taken := by
  induction h with
  | null => exact taken_null
  | bool => exact taken_bool _
  | number digital unpadded => exact taken_number digital unpadded
  | text => exact taken_text _
  | array _ ih => exact taken_array ih
  | struct _ ih => exact taken_struct ih

/-- Printed JSON is read as what was printed. -/
theorem parse?_print {j : Json} (h : j.Written) : parse? j.print = some j := by
  have htaken := h.taken
  have hscan := htaken.scan_eq [] (by simp [Follows])
  have hskip := htaken.visible.skipBlank_append []
  rw [List.append_nil] at hscan hskip
  simp [parse?, print, hskip, hscan]

end Json

end RecordQuery
