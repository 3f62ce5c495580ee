import RecordQuery.Json.Basic

/-! The spelling of a string ends at its closing quote and names the string again. A character is
spelled in one of three ways: by an escape of one letter, by a numbered escape, or by itself. -/

namespace RecordQuery.Json

theorem hexDigit?_digitChar : ∀ k < 16, hexDigit? (Nat.digitChar k) = some k := by decide

/-! ### One character -/

/-- The ways in which a character is spelled. -/
inductive SpelledAs (c : Char) : List Char → Prop
  | short {e} : (e, c) ∈ shortEscapes → SpelledAs c ['\\', e]
  | numbered : c < ' ' →
      SpelledAs c ['\\', 'u', '0', '0', Nat.digitChar (c.toNat / 16), Nat.digitChar (c.toNat % 16)]
  | plain : c ≠ '"' → c ≠ '\\' → ¬ c < ' ' → SpelledAs c [c]

theorem spelledAs_spellChar (c : Char) : SpelledAs c (spellChar c) := by
  unfold spellChar
  split
  case h_8 quote backslash _ _ _ _ _ =>
    split
    · rename_i hcontrol
      exact .numbered hcontrol
    · rename_i hcontrol
      exact .plain quote backslash hcontrol
  all_goals exact .short (by decide)

theorem lookup_shortEscapes :
    ∀ p ∈ shortEscapes, p.1 ≠ 'u' ∧ shortEscapes.lookup p.1 = some p.2 := by decide

theorem toNat_lt_of_control {c : Char} (h : c < ' ') : c.toNat < 32 := h

namespace SpelledAs

variable {c : Char} {t : List Char}

theorem length_pos (h : SpelledAs c t) : 0 < t.length := by
  cases h <;> simp

/-- A spelled character does not end a spelling. -/
theorem scanSpelling_append (h : SpelledAs c t) (s : List Char) :
    scanSpelling .any (t ++ s) = (scanSpelling .any s).map fun x => (t ++ x.1, x.2) := by
  cases h with
  | @short e he =>
    obtain ⟨hu, hlookup⟩ := lookup_shortEscapes _ he
    simp only at hu hlookup
    simp [scanSpelling, hu, hlookup, Function.comp_def, Prod.map]
  | numbered hcontrol =>
    have hlt := toNat_lt_of_control hcontrol
    have hhigh := hexDigit?_digitChar (c.toNat / 16) (by omega)
    have hlow := hexDigit?_digitChar (c.toNat % 16) (by omega)
    have hzero : hexDigit? '0' = some 0 := by decide
    simp [scanSpelling, hhigh, hlow, hzero, Function.comp_def, Prod.map]
  | plain hquote hbackslash hcontrol =>
    rw [List.singleton_append, scanSpelling, if_neg hquote, if_neg hcontrol, if_neg hbackslash]
    rfl

/-- A spelled character is named by its spelling. -/
theorem scanSpelled_append (h : SpelledAs c t) (s : List Char) :
    scanSpelled (t ++ s) = some (c, s) := by
  cases h with
  | @short e he =>
    obtain ⟨hu, hlookup⟩ := lookup_shortEscapes _ he
    simp only at hu hlookup
    simp [scanSpelled, hu, hlookup]
  | numbered hcontrol =>
    have hlt := toNat_lt_of_control hcontrol
    have hhigh := hexDigit?_digitChar (c.toNat / 16) (by omega)
    have hlow := hexDigit?_digitChar (c.toNat % 16) (by omega)
    have hzero : hexDigit? '0' = some 0 := by decide
    have hunit : 16 * (c.toNat / 16) + c.toNat % 16 = c.toNat := by omega
    have hlead : isLead c.toNat = false := by simp only [isLead]; grind
    have htrail : isTrail c.toNat = false := by simp only [isTrail]; grind
    simp [scanSpelled, scanUnit, hhigh, hlow, hzero, hunit, hlead, htrail]
  | plain _ hbackslash _ =>
    simp [scanSpelled, hbackslash]

end SpelledAs

/-! ### All characters -/

theorem scanSpelling_flatMap (cs rest : List Char) :
    scanSpelling .any (cs.flatMap spellChar ++ '"' :: rest) =
      some (cs.flatMap spellChar, rest) := by
  induction cs with
  | nil => rfl
  | cons c cs ih =>
    rw [List.flatMap_cons, List.append_assoc, (spelledAs_spellChar c).scanSpelling_append, ih]
    rfl

/-- The spelling of a string ends where it is closed. -/
theorem scanSpelling_spell (s : String) (rest : List Char) :
    scanSpelling .any (spell s ++ '"' :: rest) = some (spell s, rest) :=
  scanSpelling_flatMap s.toList rest

theorem spelled_of_scanSpelled {s rest : List Char} {c : Char} (h : scanSpelled s = some (c, rest))
    (hlength : rest.length < s.length) : spelled s = (c :: ·) <$> spelled rest := by
  cases s with
  | nil => exact absurd h (by simp [scanSpelled])
  | cons d s =>
    rw [spelled, h]
    simp only [hlength, if_true]

theorem spelled_flatMap (cs : List Char) : spelled (cs.flatMap spellChar) = some cs := by
  induction cs with
  | nil => rw [List.flatMap_nil, spelled]
  | cons c cs ih =>
    have hspelled := spelledAs_spellChar c
    have hlength := hspelled.length_pos
    rw [List.flatMap_cons, spelled_of_scanSpelled (hspelled.scanSpelled_append _), ih]
    · rfl
    · rw [List.length_append]
      omega

/-- The spelling of a string names the string. -/
@[simp] theorem unspell?_spell (s : String) : unspell? (spell s) = some s := by
  rw [unspell?, spell, spelled_flatMap]
  exact congrArg some String.ofList_toList

end RecordQuery.Json
