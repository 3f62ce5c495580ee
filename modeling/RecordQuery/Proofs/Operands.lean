import RecordQuery.Proofs.Denotation

/-! Texts that spell operands. Such a text is read as the operand it spells, whatever part may
follow it, and it begins neither a negation nor a constant nor a group. The canonical text of an
operand spells what it is read as, unless it holds a negative infinity. -/

namespace RecordQuery

open Predicate (constantWords)
open Text (isBlank)

/-! ### How the text of an operand begins -/

/-- What begins an operand begins no negation, no constant and no group. -/
structure OpensOperand (s : List Char) : Prop where
  afterNot_eq : afterNot s = none
  scanWord_eq : scanWord constantWords s = none
  exists_cons : ∃ c t, s = c :: t ∧ c ≠ '(' ∧ isBlank c = false

theorem all_isIdentifierChar_constantWords :
    ∀ w ∈ constantWords, w.1.toList.all isIdentifierChar := by decide

theorem all_isIdentifierChar_literalWords :
    ∀ w ∈ literalWords, w.1.toList.all isIdentifierChar := by decide

theorem afterNot_eq_afterKeyword {c : Char} (h : c ≠ '!') (s : List Char) :
    afterNot (c :: s) = afterKeyword "not".toList (c :: s) := by
  unfold afterNot
  split <;> simp_all

/-- The characters that begin a negation, a group or nothing at all. -/
theorem isBlank_eq_false {c : Char} (h : ∀ d ∈ ['!', '(', ' ', '\t', '\r', '\n'], c ≠ d) :
    isBlank c = false := by
  simp only [isBlank, Bool.or_eq_false_iff, beq_eq_false_iff_ne]
  exact ⟨⟨⟨h ' ' (by simp), h '\t' (by simp)⟩, h '\r' (by simp)⟩, h '\n' (by simp)⟩

theorem isAlpha_of_sign {c : Char} (h : c.isDigit = true ∨ c ∈ ['-', '"', '\'', '%']) :
    c.isAlpha = false := by
  rcases h with h | h
  · exact isAlpha_of_isDigit h
  · have hall : ['-', '"', '\'', '%'].all fun c => !c.isAlpha := by decide
    simpa using List.all_eq_true.1 hall c h

theorem opensOperand_of_sign {c : Char} (h : c.isDigit = true ∨ c ∈ ['-', '"', '\'', '%'])
    (s : List Char) : OpensOperand (c :: s) := by
  have halpha := isAlpha_of_sign h
  have hne : ∀ d ∈ ['!', '(', ' ', '\t', '\r', '\n'], c ≠ d :=
    ne_of_test (fun c => c.isDigit || c ∈ ['-', '"', '\'', '%']) (by simpa using h) (by decide)
  refine ⟨?_, scanWord_of_not_isAlpha (by decide) halpha, c, s, rfl, hne '(' (by simp),
    isBlank_eq_false hne⟩
  rw [afterNot_eq_afterKeyword (hne '!' (by simp))]
  exact afterKeyword_of_not_isAlpha (by decide) halpha

theorem opensOperand_of_run {c : Char} {run rest : List Char} (hc : isIdentifierStart c = true)
    (hrun : run.all isIdentifierChar) (stop : ∀ c ∈ rest.head?, isIdentifierChar c = false)
    (hne : (c :: run).map Char.toLower ∉
      ["not".toList, "truepredicate".toList, "falsepredicate".toList]) :
    OpensOperand (c :: run ++ rest) := by
  obtain ⟨hnot, hwords⟩ := not_or.1 (mt List.mem_cons.2 hne)
  have hall : (c :: run).all isIdentifierChar := by
    rw [List.all_cons, isIdentifierChar_of_start hc, hrun, Bool.and_self]
  have hsign : ∀ d ∈ ['!', '(', ' ', '\t', '\r', '\n'], c ≠ d :=
    ne_of_test isIdentifierStart hc (by decide)
  refine ⟨?_, ?_, c, run ++ rest, rfl, hsign '(' (by simp), isBlank_eq_false hsign⟩
  · rw [List.cons_append, afterNot_eq_afterKeyword (hsign '!' (by simp)), ← List.cons_append,
      afterKeyword_append (by decide) hall stop, if_neg hnot]
  · rw [scanWord_append all_isIdentifierChar_constantWords hall stop, Option.map_eq_none_iff,
      List.find?_eq_none]
    intro w hw he
    have hw' : w.1.toList ∈ ["truepredicate".toList, "falsepredicate".toList] :=
      (by decide : ∀ w ∈ constantWords,
        w.1.toList ∈ ["truepredicate".toList, "falsepredicate".toList]) w hw
    rw [← of_decide_eq_true he] at hw'
    exact hwords hw'

/-- What is no reserved word is no word at all. -/
theorem opensOperand_of_isIdentifier {step rest : List Char} (h : isIdentifier step = true)
    (stop : ∀ c ∈ rest.head?, isIdentifierChar c = false) : OpensOperand (step ++ rest) := by
  obtain ⟨c, run, rfl, hc⟩ := exists_cons_of_isIdentifier h
  have hall := all_isIdentifierChar h
  rw [List.all_cons, Bool.and_eq_true] at hall
  refine opensOperand_of_run hc hall.2 stop fun hmem => ?_
  simp only [List.mem_cons, List.not_mem_nil, or_false] at hmem
  rcases hmem with he | he | he
  · exact map_toLower_ne h "not" (by decide) he
  · exact map_toLower_ne h "truepredicate" (by decide) he
  · exact map_toLower_ne h "falsepredicate" (by decide) he

/-- A word for a literal is a run that begins like an identifier, and no other word. -/
theorem run_of_literalWords {w : String × Value} (hw : w ∈ literalWords) {t : List Char}
    (ht : t.map Char.toLower = w.1.toList) : ∃ c run, t = c :: run ∧ isIdentifierStart c = true ∧
      run.all isIdentifierChar ∧ (c :: run).map Char.toLower ∉
        ["not".toList, "truepredicate".toList, "falsepredicate".toList] := by
  have hword := (by decide : ∀ w ∈ literalWords, w.1.toList.head?.any Char.isAlpha ∧
    w.1.toList.all isIdentifierChar ∧ w.1.toList ∉
      ["not".toList, "truepredicate".toList, "falsepredicate".toList]) w hw
  rw [← ht, all_isIdentifierChar_map_toLower] at hword
  obtain ⟨halpha, hall, hne⟩ := hword
  cases t with
  | nil => simp at halpha
  | cons c run =>
    rw [List.map_cons, List.head?_cons, Option.any_some, isAlpha_toLower] at halpha
    rw [List.all_cons, Bool.and_eq_true] at hall
    exact ⟨c, run, rfl, by simp [isIdentifierStart, halpha], hall.2, hne⟩

theorem opensOperand_of_word {w : String × Value} (hw : w ∈ literalWords) {t rest : List Char}
    (ht : t.map Char.toLower = w.1.toList)
    (stop : ∀ c ∈ rest.head?, isIdentifierChar c = false) : OpensOperand (t ++ rest) := by
  obtain ⟨c, run, rfl, hc, hrun, hne⟩ := run_of_literalWords hw ht
  exact opensOperand_of_run hc hrun stop hne

theorem Numeral.Positional.exists_cons {n : Numeral} (h : n.Positional) :
    ∃ c s, n.chars = c :: s ∧ (c.isDigit = true ∨ c ∈ ['-']) := by
  obtain ⟨c, s, hwhole⟩ := List.exists_cons_of_ne_nil h.whole_ne_nil
  rw [h.chars_eq]
  cases n.negative with
  | true => exact ⟨'-', _, rfl, .inr (by simp)⟩
  | false => exact ⟨c, _, by rw [hwhole]; rfl, .inl (h.whole_digits c (by simp [hwhole]))⟩

/-! ### Reading an operand back -/

theorem scanOperand_cons {c : Char} (h : ∀ d ∈ ['%', '"', '\''], c ≠ d) (s : List Char) :
    scanOperand (c :: s) =
      ((scanWord literalWords (c :: s)).map (Prod.map (.ok ∘ .literal) id)
        <|> (scanNumeral (c :: s)).map (Prod.map (.ok ∘ .literal ∘ Value.ofNumeral) id)
        <|> (scanPath (c :: s)).map (Prod.map scanOperand.ofPath id)) := by
  unfold scanOperand
  split <;> simp_all

theorem scanNumeral_of_isIdentifierStart {c : Char} (h : isIdentifierStart c = true)
    (s : List Char) : scanNumeral (c :: s) = none := by
  have hne : c ≠ '-' := by
    rintro rfl
    exact absurd h (by decide)
  have hdigit : c.isDigit = false := by
    by_contra hc
    have halpha := isAlpha_of_isDigit (Bool.not_eq_false _ ▸ hc)
    have hne : c ≠ '_' := by
      rintro rfl
      exact hc (by decide)
    simp [isIdentifierStart, halpha, hne] at h
  simp [scanNumeral, Numeral.scanMinus_of_ne hne, Numeral.scanDigits, hdigit]

section

variable {rest : List Char}

theorem scanOperand_numeral {n : Numeral} (h : n.Positional) (stop : Stops rest) :
    scanOperand (n.chars ++ rest) = some (.ok (.literal (.ofNumeral n)), rest) := by
  have hscan := scanNumeral_chars h stop
  obtain ⟨c, s, hchars, hc⟩ := h.exists_cons
  rw [hchars, List.cons_append] at hscan ⊢
  have hword : scanWord literalWords (c :: (s ++ rest)) = none :=
    scanWord_of_not_isAlpha (by decide) (isAlpha_of_sign (hc.imp_right (by simp_all)))
  rw [scanOperand_cons (ne_of_test (fun c => c.isDigit || c ∈ ['-']) (by simpa using hc)
    (by decide)), hword, hscan]
  rfl

theorem scanOperand_path {path : KeyPath} (h : path.isValid = true) (stop : Stops rest) :
    scanOperand (path.chars ++ rest) = some (.ok (.path path), rest) := by
  have hscan := path.scanPath_chars h stop
  obtain ⟨step, tail, hchars, hstep, htail⟩ := path.exists_chars_eq h
  have hword : scanWord literalWords (path.chars ++ rest) = none := by
    have hstop : ∀ c ∈ (tail ++ rest).head?, isIdentifierChar c = false := by
      cases tail with
      | nil => exact stop.head_false isIdentifierChar (by decide)
      | cons d tail =>
        intro c hc
        obtain rfl : d = c := by simpa using hc
        rw [htail d (by simp)]
        decide
    rw [hchars, List.append_assoc,
      scanWord_append all_isIdentifierChar_literalWords (all_isIdentifierChar hstep) hstop,
      Option.map_eq_none_iff, List.find?_eq_none]
    intro w hw he
    exact map_toLower_ne hstep w.1
      ((by decide : ∀ w ∈ literalWords, w.1 ∈ reservedWords) w hw) (of_decide_eq_true he)
  obtain ⟨c, s, rfl, hc⟩ := exists_cons_of_isIdentifier hstep
  rw [hchars, List.append_assoc, List.cons_append] at hscan hword ⊢
  rw [scanOperand_cons (ne_of_test isIdentifierStart hc (by decide)), hword,
    scanNumeral_of_isIdentifierStart hc, hscan]
  have hparse := path.parse_text h
  rw [KeyPath.text, hchars] at hparse
  simp only [Option.map_none, Option.map_some, Prod.map_apply, id_eq, scanOperand.ofPath, hparse]
  rfl

theorem scanOperand_word {w : String × Value} (hw : w ∈ literalWords) {t : List Char}
    (ht : t.map Char.toLower = w.1.toList) (stop : Stops rest) :
    scanOperand (t ++ rest) = some (.ok (.literal w.2), rest) := by
  obtain ⟨c, run, rfl, hc, hrun, -⟩ := run_of_literalWords hw ht
  have hall : (c :: run).all isIdentifierChar := by
    rw [List.all_cons, isIdentifierChar_of_start hc, hrun, Bool.and_self]
  have hword := scanWord_append all_isIdentifierChar_literalWords hall
    (stop.head_false isIdentifierChar (by decide))
  have hfind : literalWords.find? (fun v => w.1.toList = v.1.toList) = some w :=
    (by decide : ∀ w ∈ literalWords,
      literalWords.find? (fun v => w.1.toList = v.1.toList) = some w) w hw
  rw [ht, hfind] at hword
  rw [List.cons_append, scanOperand_cons (ne_of_test isIdentifierStart hc (by decide)),
    ← List.cons_append, hword]
  rfl

theorem scanOperand_quote (s : String) :
    scanOperand (Text.quote s.toList ++ rest) = some (.ok (.literal (.string s)), rest) := by
  have hscan := Text.scanQuoted_quote s.toList rest
  simp only [Text.quote, List.cons_append, List.append_assoc, List.nil_append]
  unfold scanOperand
  simp [hscan, scanOperand.ofString]

end

namespace Binary64

/-- The words for what is not finite are steps of a path. -/
theorem chars_of_not_isFinite {x : Binary64} (h : x.isFinite = false) (hne : x ≠ .infinity true) :
    x.chars = "NaN".toList ∨ x.chars = "inf".toList := by
  simp only [chars, h]
  by_cases hnan : x.isNaN = true
  · exact .inl (if_pos hnan)
  · cases hsign : x.negative with
    | false => exact .inr (by simp [hnan])
    | true =>
      have hx := eq_infinity (by simpa using hnan) h
      rw [hsign] at hx
      exact absurd hx hne

end Binary64

/-- A text that spells an operand: a word, a numeral, a quotation, a path or a placeholder. -/
inductive Spells : List Char → Operand → Prop
  | nil : Spells "nil".toList (.literal .nil)
  | numeral {n : Numeral} : n.Positional → Spells n.chars (.literal (.ofNumeral n))
  | quotation (s : String) : Spells (Text.quote s.toList) (.literal (.string s))
  | path {path : KeyPath} : path.isValid = true → Spells path.chars (.path path)
  | placeholder (p : Placeholder) : Spells p.chars (.placeholder p)

namespace Spells

variable {t rest : List Char} {o : Operand}

theorem scanOperand_eq (h : Spells t o) (stop : Stops rest) :
    scanOperand (t ++ rest) = some (.ok o, rest) := by
  cases h with
  | nil => exact scanOperand_word (.head _) (by decide) stop
  | numeral h => exact scanOperand_numeral h stop
  | quotation s => exact scanOperand_quote s
  | path h => exact scanOperand_path h stop
  | placeholder p => cases p <;> rfl

theorem opensOperand (h : Spells t o) (stop : Stops rest) : OpensOperand (t ++ rest) := by
  have hstop := stop.head_false isIdentifierChar (by decide)
  cases h with
  | nil => exact opensOperand_of_word (.head _) (by decide) hstop
  | numeral h =>
    obtain ⟨c, s, hchars, hc⟩ := h.exists_cons
    rw [hchars]
    exact opensOperand_of_sign (hc.imp_right (by simp_all)) _
  | quotation s => exact opensOperand_of_sign (.inr (by simp)) _
  | path h =>
    obtain ⟨step, tail, hchars, hstep, htail⟩ := KeyPath.exists_chars_eq h
    rw [hchars, List.append_assoc]
    refine opensOperand_of_isIdentifier hstep ?_
    cases tail with
    | nil => exact hstop
    | cons d tail => simpa [htail d (by simp)] using (by decide : isIdentifierChar '.' = false)
  | placeholder p => cases p <;> exact opensOperand_of_sign (.inr (by simp)) _

end Spells

/-- A text that is read as an operand of a comparison wherever it stands. -/
structure ReadsAsLeaf (t : List Char) (o : Operand) : Prop where
  scanOperand_eq : ∀ {rest}, Stops rest → scanOperand (t ++ rest) = some (.ok o, rest)
  opensOperand : ∀ {rest}, Stops rest → OpensOperand (t ++ rest)

theorem Spells.readsAsLeaf {t : List Char} {o : Operand} (h : Spells t o) : ReadsAsLeaf t o :=
  ⟨h.scanOperand_eq, h.opensOperand⟩

/-- The operands whose text is read: paths have to be valid, and a negative infinity has no text
that could be. -/
def Operand.Readable : Operand → Prop
  | path p => p.isValid = true
  | literal v => v ≠ .float (.infinity true)
  | placeholder _ => True

theorem Value.ofNumeral_ofInt (n : Int64) : ofNumeral (.ofInt n.toInt) = integer n := by
  simp [ofNumeral, ofInt]

theorem Spells.ofInt (n : Int64) :
    Spells (Numeral.ofInt n.toInt).chars (.literal (.integer n)) := by
  rw [← Value.ofNumeral_ofInt]
  exact .numeral (Numeral.positional_ofInt _)

/-- The text of a readable operand spells what it is read as. -/
theorem Operand.spells_chars {o : Operand} (h : o.Readable) : Spells o.chars o.reread := by
  cases o with
  | path p => exact .path h
  | placeholder p => exact .placeholder p
  | literal v =>
    cases v with
    | nil => exact .nil
    | bool b =>
      have hchars : (Value.bool b).chars =
          (Numeral.ofInt (if b then 1 else 0 : Int64).toInt).chars := by cases b <;> decide
      change Spells (Value.bool b).chars _
      rw [hchars]
      exact .ofInt _
    | integer n => exact .ofInt n
    | string s => exact .quotation s
    | float x =>
      have hne : x ≠ .infinity true := fun he => h (by rw [he])
      cases hfin : x.isFinite with
      | true =>
        simp only [chars, Value.chars, Binary64.chars_of_isFinite hfin, reread, hfin, if_true,
          ← Value.ofNumeral_plain hfin]
        exact .numeral (FloatLayout.positional_numeral_plain x)
      | false =>
        -- a word for what is not finite is an identifier
        have hpath : (KeyPath.ofText x.text).isValid = true := by
          rw [Binary64.text]
          rcases Binary64.chars_of_not_isFinite hfin hne with h | h <;> rw [h] <;> decide
        have hchars : x.chars = (KeyPath.ofText x.text).chars :=
          String.ofList_injective (KeyPath.text_ofText x.text).symm
        simp only [chars, Value.chars, reread, hfin, hchars]
        exact .path hpath

end RecordQuery
