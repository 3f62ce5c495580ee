import Mathlib.Data.List.TakeWhile
import RecordQuery.Proofs.Scanned
import RecordQuery.Proofs.Tokens

/-! The only place of a minus sign outside string literals is in front of a digit. A minus sign with
no digit after it is passed by no scanner, so a text that holds one is not read; the text of a
negative infinity does. -/

namespace RecordQuery

open Text (isBlank skipBlank scanLiteral)

/-- Whether a minus sign without a digit after it stands outside the string literals of a text. The
first argument tells which quote closes the literal that the text begins in, if it begins in one,
and whether a backslash has just been passed. -/
def hasStrayMinus : Option (Char × Bool) → List Char → Bool
  | _, [] => false
  | none, c :: s =>
    if c = '"' || c = '\'' then hasStrayMinus (some (c, false)) s
    else (c == '-' && !s.head?.any Char.isDigit) || hasStrayMinus none s
  | some (closing, true), _ :: s => hasStrayMinus (some (closing, false)) s
  | some (closing, false), c :: s =>
    if c = closing then hasStrayMinus none s
    else hasStrayMinus (some (closing, c == '\\')) s

/-- A character that neither opens a literal nor is a minus sign. -/
def isNeutral (c : Char) : Bool := c != '"' && c != '\'' && c != '-'

theorem hasStrayMinus_cons {c : Char} (h : isNeutral c = true) (s : List Char) :
    hasStrayMinus none (c :: s) = hasStrayMinus none s := by
  simp only [isNeutral, Bool.and_eq_true, bne_iff_ne] at h
  simp [hasStrayMinus, h.1.1, h.1.2, h.2]

theorem hasStrayMinus_append {t : List Char} (h : ∀ c ∈ t, isNeutral c = true) (s : List Char) :
    hasStrayMinus none (t ++ s) = hasStrayMinus none s := by
  induction t with
  | nil => rfl
  | cons c t ih =>
    rw [List.cons_append, hasStrayMinus_cons (h c (by simp)),
      ih fun d hd => h d (List.mem_cons_of_mem c hd)]

theorem hasStrayMinus_minus {c : Char} (h : c.isDigit = true) (s : List Char) :
    hasStrayMinus none ('-' :: c :: s) = hasStrayMinus none (c :: s) := by
  rw [hasStrayMinus]
  simp [h]

theorem isNeutral_of_isIdentifierChar {c : Char} (h : isIdentifierChar c = true ∨ c = '.') :
    isNeutral c = true := by
  simp only [isNeutral, Bool.and_eq_true, bne_iff_ne]
  refine ⟨⟨?_, ?_⟩, ?_⟩ <;> rintro rfl <;> exact absurd h (by decide)

theorem isNeutral_of_isDigit {c : Char} (h : c.isDigit = true) : isNeutral c = true :=
  isNeutral_of_isIdentifierChar (.inl (by simp [isIdentifierChar, Char.isAlphanum, h]))

/-! ### What the scanners pass -/

theorem hasStrayMinus_skipBlank (s : List Char) :
    hasStrayMinus none (skipBlank s) = hasStrayMinus none s := by
  have hblank : ∀ c ∈ s.takeWhile isBlank, isNeutral c = true := by
    intro c hc
    have := List.mem_takeWhile_imp hc
    simp only [isBlank, Bool.or_eq_true, beq_iff_eq] at this
    rcases this with ((rfl | rfl) | rfl) | rfl <;> rfl
  rw [← hasStrayMinus_append hblank (skipBlank s), skipBlank, List.takeWhile_append_dropWhile]

theorem hasStrayMinus_afterWord {word s rest : List Char} (hword : word.all isIdentifierChar = true)
    (h : afterWord word s = some rest) : hasStrayMinus none s = hasStrayMinus none rest := by
  fun_induction afterWord word s with
  | case1 s =>
    obtain rfl := Option.some.inj h
    rfl
  | case2 => exact absurd h (by simp)
  | case3 word c s ih =>
    rw [List.all_cons, Bool.and_eq_true, isIdentifierChar_toLower] at hword
    rw [hasStrayMinus_cons (isNeutral_of_isIdentifierChar (.inl hword.1)), ih hword.2 h]
  | case4 => exact absurd h (by simp)

theorem hasStrayMinus_afterKeyword {word s rest : List Char}
    (hword : word.all isIdentifierChar = true) (h : afterKeyword word s = some rest) :
    hasStrayMinus none s = hasStrayMinus none rest :=
  hasStrayMinus_afterWord hword (Option.filter_eq_some_iff.1 h).1

theorem hasStrayMinus_scanWord {α : Type} {words : List (String × α)}
    (hwords : ∀ w ∈ words, w.1.toList.all isIdentifierChar) {s rest : List Char} {value : α}
    (h : scanWord words s = some (value, rest)) :
    hasStrayMinus none s = hasStrayMinus none rest := by
  obtain ⟨word, hmem, hafter⟩ := mem_of_scanWord h
  exact hasStrayMinus_afterKeyword (hwords _ hmem) hafter

theorem hasStrayMinus_afterConnective {kind : Connective} {s rest : List Char}
    (h : Predicate.afterConnective kind s = some rest) :
    hasStrayMinus none s = hasStrayMinus none rest := by
  cases kind with
  | and =>
    replace h : afterAnd s = some rest := h
    unfold afterAnd at h
    split at h
    · obtain rfl := Option.some.inj h
      rfl
    · exact hasStrayMinus_afterKeyword (by decide) h
  | or =>
    replace h : afterOr s = some rest := h
    unfold afterOr at h
    split at h
    · obtain rfl := Option.some.inj h
      rfl
    · exact hasStrayMinus_afterKeyword (by decide) h

theorem hasStrayMinus_afterNot {s rest : List Char} (h : afterNot s = some rest) :
    hasStrayMinus none s = hasStrayMinus none rest := by
  unfold afterNot at h
  split at h
  · exact absurd h (by simp)
  · obtain rfl := Option.some.inj h
    rfl
  · exact hasStrayMinus_afterKeyword (by decide) h

theorem hasStrayMinus_scanSymbol {s rest : List Char} {op : Operator}
    (h : scanSymbol s = some (op, rest)) : hasStrayMinus none s = hasStrayMinus none rest := by
  unfold scanSymbol at h
  split at h
  all_goals first
    | obtain ⟨rfl, rfl⟩ := Prod.mk.inj (Option.some.inj h); rfl
    | exact absurd h (by simp)

theorem hasStrayMinus_scanModifier (s : List Char) :
    hasStrayMinus none (scanModifier s).2 = hasStrayMinus none s := by
  unfold scanModifier
  split
  · rename_i r
    split
    · rename_i flag flags rest htake hdrop
      have hr : r = flag :: flags ++ ']' :: rest := by
        rw [← htake, ← hdrop, List.takeWhile_append_dropWhile]
      have hletters : ∀ c ∈ flag :: flags, isNeutral c = true := by
        intro c hc
        rw [← htake] at hc
        have halpha := List.mem_takeWhile_imp hc
        refine isNeutral_of_isIdentifierChar (.inl ?_)
        simp [isIdentifierChar, Char.isAlphanum, halpha]
      rw [hr, hasStrayMinus_cons (by decide), hasStrayMinus_append hletters,
        hasStrayMinus_cons (by decide)]
    · rfl
  · rfl

theorem hasStrayMinus_scanOperator {s rest : List Char} {found : Operator × Except FormatError Bool}
    (h : scanOperator s = some (found, rest)) :
    hasStrayMinus none s = hasStrayMinus none rest := by
  simp only [scanOperator, Option.bind_eq_bind, Option.bind_eq_some_iff, Prod.exists] at h
  obtain ⟨op, t, hop, hmodifier⟩ := h
  obtain ⟨-, rfl⟩ := Prod.mk.inj (Option.some.inj hmodifier)
  rw [hasStrayMinus_scanModifier]
  cases hsymbol : scanSymbol s with
  | some x =>
    rw [hsymbol] at hop
    obtain rfl : x = (op, t) := Option.some.inj hop
    exact hasStrayMinus_scanSymbol hsymbol
  | none =>
    rw [hsymbol] at hop
    exact hasStrayMinus_scanWord (by decide) hop

theorem hasStrayMinus_scanDigits (s : List Char) :
    hasStrayMinus none (Numeral.scanDigits s).2 = hasStrayMinus none s := by
  have hdigits : ∀ c ∈ s.takeWhile Char.isDigit, isNeutral c = true :=
    fun c hc => isNeutral_of_isDigit (List.mem_takeWhile_imp hc)
  rw [← hasStrayMinus_append hdigits, Numeral.scanDigits, List.takeWhile_append_dropWhile]

/-- A minus sign with digits after it is not stray. -/
theorem hasStrayMinus_scanMinus {s : List Char}
    (h : (Numeral.scanDigits (Numeral.scanMinus s).2).1 ≠ []) :
    hasStrayMinus none (Numeral.scanMinus s).2 = hasStrayMinus none s := by
  unfold Numeral.scanMinus at h ⊢
  split
  · rename_i r
    cases r with
    | nil => exact absurd rfl h
    | cons c r =>
      have hc : c.isDigit = true := by
        by_contra hc
        simp [Numeral.scanDigits, hc] at h
      rw [hasStrayMinus_minus hc]
  · rfl

theorem hasStrayMinus_scanFraction (s : List Char) :
    hasStrayMinus none (Numeral.scanFraction s).2 = hasStrayMinus none s := by
  unfold Numeral.scanFraction
  split
  · rename_i r
    have hdigits := hasStrayMinus_scanDigits r
    split
    · rfl
    · rw [hdigits, hasStrayMinus_cons (by decide)]
  · rfl

theorem hasStrayMinus_scanSign {s : List Char}
    (h : (Numeral.scanDigits (Numeral.scanSign s).2).1 ≠ []) :
    hasStrayMinus none (Numeral.scanSign s).2 = hasStrayMinus none s := by
  unfold Numeral.scanSign at h ⊢
  split at h
  · rw [hasStrayMinus_cons (by decide)]
  · exact hasStrayMinus_scanMinus h

theorem hasStrayMinus_scanExponent (s : List Char) :
    hasStrayMinus none (Numeral.scanExponent s).2 = hasStrayMinus none s := by
  unfold Numeral.scanExponent
  split
  · rfl
  · rename_i e r
    split
    · rename_i he
      have hneutral : isNeutral e = true := by
        refine isNeutral_of_isIdentifierChar (.inl ?_)
        rw [← isIdentifierChar_toLower, he]
        decide
      have hsign := @hasStrayMinus_scanSign r
      have hdigits := hasStrayMinus_scanDigits (Numeral.scanSign r).2
      generalize Numeral.scanSign r = sign at hsign hdigits ⊢
      obtain ⟨negative, t⟩ := sign
      simp only at hsign hdigits ⊢
      generalize Numeral.scanDigits t = found at hsign hdigits ⊢
      obtain ⟨digits, u⟩ := found
      cases digits with
      | nil => rfl
      | cons d digits =>
        show hasStrayMinus none u = hasStrayMinus none (e :: r)
        rw [hdigits, hsign (List.cons_ne_nil d digits), hasStrayMinus_cons hneutral]
    · rfl

theorem hasStrayMinus_scanNumeral {s rest : List Char} {n : Numeral}
    (h : scanNumeral s = some (n, rest)) : hasStrayMinus none s = hasStrayMinus none rest := by
  have hminus := @hasStrayMinus_scanMinus s
  have hdigits := hasStrayMinus_scanDigits (Numeral.scanMinus s).2
  unfold scanNumeral at h
  generalize Numeral.scanMinus s = sign at h hminus hdigits
  obtain ⟨negative, t⟩ := sign
  simp only at h
  generalize Numeral.scanDigits t = found at h hminus hdigits
  obtain ⟨whole, u⟩ := found
  cases whole with
  | nil => exact absurd h (by simp)
  | cons d whole =>
    have hs : hasStrayMinus none s = hasStrayMinus none u :=
      (hdigits.trans (hminus (List.cons_ne_nil d whole))).symm
    have hfraction := hasStrayMinus_scanFraction u
    simp only at h
    generalize Numeral.scanFraction u = found at h hfraction
    obtain ⟨fraction, v⟩ := found
    cases fraction with
    | nil =>
      obtain ⟨-, rfl⟩ := Prod.mk.inj (Option.some.inj h)
      exact hs.trans hfraction.symm
    | cons f fraction =>
      obtain ⟨-, rfl⟩ := Prod.mk.inj (Option.some.inj h)
      exact hs.trans (hfraction.symm.trans (hasStrayMinus_scanExponent v).symm)

theorem hasStrayMinus_scanSteps (s : List Char) :
    hasStrayMinus none (scanSteps s).2 = hasStrayMinus none s := by
  fun_induction scanSteps s with
  | case1 => rfl
  | case2 c s hc found rest hfound ih =>
    have hneutral : isNeutral c = true := by
      refine isNeutral_of_isIdentifierChar ?_
      simp only [Bool.or_eq_true, Bool.and_eq_true, beq_iff_eq] at hc
      exact hc.imp_right And.left
    rw [hfound] at ih
    rw [hasStrayMinus_cons hneutral, ← ih]
  | case3 => rfl

theorem hasStrayMinus_scanPath {s rest found : List Char}
    (h : scanPath s = some (found, rest)) : hasStrayMinus none s = hasStrayMinus none rest := by
  unfold scanPath at h
  split at h
  · have hsteps := hasStrayMinus_scanSteps s
    rw [Option.some.inj h] at hsteps
    exact hsteps.symm
  · exact absurd h (by simp)

theorem hasStrayMinus_scanLiteral {closing : Char} {escaped : Bool} {s found rest : List Char}
    (h : scanLiteral closing escaped s = some (found, rest)) :
    hasStrayMinus (some (closing, escaped)) s = hasStrayMinus none rest := by
  induction s generalizing escaped found with
  | nil => exact absurd h (by simp [scanLiteral])
  | cons c s ih =>
    have step {d : Char} {e : Bool}
        (h : (scanLiteral closing e s).map (Prod.map (d :: ·) id) = some (found, rest)) :
        hasStrayMinus (some (closing, e)) s = hasStrayMinus none rest := by
      obtain ⟨⟨f, r⟩, hf, he⟩ := Option.map_eq_some_iff.1 h
      obtain rfl : r = rest := congrArg Prod.snd he
      exact ih hf
    rw [scanLiteral] at h
    cases escaped with
    | true => exact step h
    | false =>
      rw [hasStrayMinus]
      simp only [Bool.false_eq_true, if_false] at h
      split at h
      · rename_i hc
        obtain ⟨-, rfl⟩ := Prod.mk.inj (Option.some.inj h)
        rw [if_pos hc]
      · rename_i hc
        rw [if_neg hc]
        split at h
        · rename_i hslash
          rw [hslash]
          exact ih h
        · rename_i hslash
          rw [beq_eq_false_iff_ne.2 hslash]
          exact step h

theorem hasStrayMinus_scanOperand {s rest : List Char} {found : Except FormatError Operand}
    (h : scanOperand s = some (found, rest)) : hasStrayMinus none s = hasStrayMinus none rest := by
  cases scannedOperand_of_scanOperand h with
  | value | key => rfl
  | @string closing s found rest hclosing hfound =>
    have hopen : hasStrayMinus none (closing :: s) = hasStrayMinus (some (closing, false)) s := by
      rw [hasStrayMinus, if_pos (by simpa using hclosing)]
    rw [hopen, hasStrayMinus_scanLiteral hfound]
  | word hword => exact hasStrayMinus_scanWord (by decide) hword
  | numeral hn => exact hasStrayMinus_scanNumeral hn
  | path hpath => exact hasStrayMinus_scanPath hpath

namespace Predicate

theorem hasStrayMinus_linked {kind : Connective} {P : List Char → Read → List Char → Prop}
    (hP : ∀ s found rest, P s found rest → hasStrayMinus none s = hasStrayMinus none rest)
    {s rest : List Char} {more : List Read} (h : Linked kind P s more rest) :
    hasStrayMinus none s = hasStrayMinus none rest := by
  induction h with
  | nil => rfl
  | @cons s r found t more rest hsign hfound _ ih =>
    calc
      hasStrayMinus none s = hasStrayMinus none (skipBlank s) := (hasStrayMinus_skipBlank s).symm
      _ = hasStrayMinus none r := hasStrayMinus_afterConnective hsign
      _ = hasStrayMinus none (skipBlank r) := (hasStrayMinus_skipBlank r).symm
      _ = hasStrayMinus none t := hP _ _ _ hfound
      _ = hasStrayMinus none rest := ih

/-- Stray minus signs are in what is left, if there are any. -/
theorem invariant_hasStrayMinus :
    Invariant fun s _ rest => hasStrayMinus none s = hasStrayMinus none rest where
  comparison h := by
    obtain ⟨left, t, op, foldCase, u, right, hleft, hop, hright, -⟩ := exists_of_scanComparison h
    rw [hasStrayMinus_scanOperand hleft, ← hasStrayMinus_skipBlank t,
      hasStrayMinus_scanOperator hop, ← hasStrayMinus_skipBlank u, hasStrayMinus_scanOperand hright]
  constant h := hasStrayMinus_scanWord (by decide) h
  group {s found t rest} h hclose := by
    rw [hasStrayMinus_cons (by decide), ← hasStrayMinus_skipBlank s, h, ← hasStrayMinus_skipBlank t,
      hclose, hasStrayMinus_cons (by decide)]
  negation {s r found rest} hnot h := by
    rw [hasStrayMinus_afterNot hnot, ← hasStrayMinus_skipBlank r, h]
  chain hfirst hmore := hfirst.trans (hasStrayMinus_linked (fun _ _ _ h => h) hmore)

/-- No text with a stray minus sign is read. -/
theorem hasStrayMinus_of_parse {format : String} {p : Predicate} (h : parse format = .ok p) :
    hasStrayMinus none format.toList = false := by
  obtain ⟨rest, hscan, hrest⟩ := exists_scan_of_parse h
  rw [← hasStrayMinus_skipBlank, invariant_hasStrayMinus.finds_scan _ _ _ hscan,
    ← hasStrayMinus_skipBlank, hrest]
  rfl

end Predicate

end RecordQuery
