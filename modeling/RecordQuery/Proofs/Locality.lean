import RecordQuery.Proofs.Reading

/-! What is read does not depend on what stands behind a closing parenthesis. No part of the
language but a string literal can contain one, so every scanner does in front of a parenthesis what
it does at the end of the text. -/

namespace RecordQuery

open Text (skipBlank scanLiteral)

variable (u : List Char)

/-! ### Letters, words and signs -/

theorem takeWhile_append_close {test : Char → Bool} (h : test ')' = false) (s : List Char) :
    (s ++ ')' :: u).takeWhile test = s.takeWhile test := by
  induction s with
  | nil => simp [h]
  | cons c s ih => rw [List.cons_append, List.takeWhile_cons, List.takeWhile_cons, ih]

theorem dropWhile_append_close {test : Char → Bool} (h : test ')' = false) (s : List Char) :
    (s ++ ')' :: u).dropWhile test = s.dropWhile test ++ ')' :: u := by
  induction s with
  | nil => simp [h]
  | cons c s ih =>
    rw [List.cons_append, List.dropWhile_cons, List.dropWhile_cons, ih]
    split <;> rfl

theorem skipBlank_append_close (s : List Char) :
    skipBlank (s ++ ')' :: u) = skipBlank s ++ ')' :: u :=
  dropWhile_append_close u rfl s

theorem afterWord_append_close {word : List Char} (hword : word.all isIdentifierChar = true)
    (s : List Char) :
    afterWord word (s ++ ')' :: u) = (afterWord word s).map (· ++ ')' :: u) := by
  fun_induction afterWord word s with
  | case1 s => cases s <;> rfl
  | case2 w word =>
    have hne : ')'.toLower ≠ w := by
      rintro rfl
      exact absurd hword (by simp [isIdentifierChar])
    rw [List.nil_append, afterWord, if_neg hne, Option.map_none]
  | case3 word c s ih =>
    rw [List.all_cons, Bool.and_eq_true] at hword
    rw [List.cons_append, afterWord, if_pos rfl, ih hword.2]
  | case4 w word c s hc => rw [List.cons_append, afterWord, if_neg hc, Option.map_none]

theorem afterKeyword_append_close {word : List Char} (hword : word.all isIdentifierChar = true)
    (s : List Char) :
    afterKeyword word (s ++ ')' :: u) = (afterKeyword word s).map (· ++ ')' :: u) := by
  have hfollows (rest : List Char) :
      (rest ++ ')' :: u).head?.any isIdentifierChar = rest.head?.any isIdentifierChar := by
    cases rest <;> rfl
  rw [afterKeyword, afterKeyword, afterWord_append_close u hword]
  cases afterWord word s with
  | none => rfl
  | some rest =>
    rw [Option.map_some, Option.filter_some, Option.filter_some, hfollows]
    split <;> rfl

theorem scanWord_append_close {α : Type} {words : List (String × α)}
    (hwords : ∀ w ∈ words, w.1.toList.all isIdentifierChar = true) (s : List Char) :
    scanWord words (s ++ ')' :: u) = (scanWord words s).map (Prod.map id (· ++ ')' :: u)) := by
  unfold scanWord
  induction words with
  | nil => rfl
  | cons w words ih =>
    obtain ⟨word, value⟩ := w
    have hword : word.toList.all isIdentifierChar = true := hwords (word, value) (by simp)
    simp only [List.findSome?_cons, afterKeyword_append_close u hword,
      ih fun v hv => hwords v (List.mem_cons_of_mem _ hv)]
    cases afterKeyword word.toList s <;> rfl

/-! A sign that does not stand at the front of a text does not stand there either with a
parenthesis behind the text. -/

theorem ne_cons_of_close {c : Char} (hc : ')' ≠ c) {s : List Char}
    (h : ∀ rest, s = c :: rest → False) : ∀ rest, s ++ ')' :: u = c :: rest → False := by
  intro rest hrest
  cases s with
  | nil => exact hc (List.cons.inj hrest).1
  | cons d s => exact h s (by rw [(List.cons.inj hrest).1])

theorem ne_cons_cons_of_close {c d : Char} (hc : ')' ≠ c) (hd : ')' ≠ d) {s : List Char}
    (h : ∀ rest, s = c :: d :: rest → False) : ∀ rest, s ++ ')' :: u = c :: d :: rest → False := by
  intro rest hrest
  cases s with
  | nil => exact hc (List.cons.inj hrest).1
  | cons e s =>
    obtain ⟨rfl, htail⟩ := List.cons.inj hrest
    exact ne_cons_of_close u hd (fun r hr => h r (congrArg _ hr)) rest htail

theorem afterAnd_append_close (s : List Char) :
    afterAnd (s ++ ')' :: u) = (afterAnd s).map (· ++ ')' :: u) := by
  fun_cases afterAnd s with
  | case1 => rfl
  | case2 =>
    rw [← afterKeyword_append_close u (by decide), afterAnd.eq_2]
    exact ne_cons_cons_of_close u (by decide) (by decide) ‹_›

theorem afterOr_append_close (s : List Char) :
    afterOr (s ++ ')' :: u) = (afterOr s).map (· ++ ')' :: u) := by
  fun_cases afterOr s with
  | case1 => rfl
  | case2 =>
    rw [← afterKeyword_append_close u (by decide), afterOr.eq_2]
    exact ne_cons_cons_of_close u (by decide) (by decide) ‹_›

theorem afterNot_append_close (s : List Char) :
    afterNot (s ++ ')' :: u) = (afterNot s).map (· ++ ')' :: u) := by
  fun_cases afterNot s with
  | case1 => rfl
  | case2 rest => exact afterNot.eq_2 _ (ne_cons_of_close u (by decide) ‹_›)
  | case3 =>
    rw [← afterKeyword_append_close u (by decide), afterNot.eq_3]
    · exact ne_cons_cons_of_close u (by decide) (by decide) ‹_›
    · exact ne_cons_of_close u (by decide) ‹_›

theorem afterConnective_append_close (kind : Connective) (s : List Char) :
    Predicate.afterConnective kind (s ++ ')' :: u) =
      (Predicate.afterConnective kind s).map (· ++ ')' :: u) := by
  cases kind with
  | and => exact afterAnd_append_close u s
  | or => exact afterOr_append_close u s

/-! ### Operators -/

theorem scanSymbol_append_close (s : List Char) :
    scanSymbol (s ++ ')' :: u) = (scanSymbol s).map (Prod.map id (· ++ ')' :: u)) := by
  fun_cases scanSymbol s
  case case8 => apply scanSymbol.eq_8 <;> exact ne_cons_of_close u (by decide) ‹_›
  case case9 => apply scanSymbol.eq_9 <;> exact ne_cons_of_close u (by decide) ‹_›
  case case10 => exact scanSymbol.eq_10 _ (ne_cons_of_close u (by decide) ‹_›)
  case case11 =>
    apply scanSymbol.eq_11 <;> first
      | exact ne_cons_of_close u (by decide) ‹_›
      | exact ne_cons_cons_of_close u (by decide) (by decide) ‹_›
  all_goals rfl

theorem scanModifier_append_close (s : List Char) :
    scanModifier (s ++ ')' :: u) = Prod.map id (· ++ ')' :: u) (scanModifier s) := by
  fun_cases scanModifier s with
  | case1 r flag flags rest htake hdrop =>
    simp only [List.cons_append, scanModifier]
    rw [takeWhile_append_close u (by decide), dropWhile_append_close u (by decide), htake, hdrop]
    rfl
  | case2 r h =>
    simp only [List.cons_append, scanModifier]
    rw [takeWhile_append_close u (by decide), dropWhile_append_close u (by decide)]
    split
    · rename_i flag flags rest htake hdrop
      exact absurd hdrop (ne_cons_of_close u (by decide) (h flag flags · htake) rest)
    · rfl
  | case3 =>
    rw [scanModifier.eq_2]
    · rfl
    · exact ne_cons_of_close u (by decide) ‹_›

theorem scanOperator_append_close (s : List Char) :
    scanOperator (s ++ ')' :: u) = (scanOperator s).map (Prod.map id (· ++ ')' :: u)) := by
  have hwords : scanWord operatorWords (s ++ ')' :: u) =
      (scanWord operatorWords s).map (Prod.map id (· ++ ')' :: u)) :=
    scanWord_append_close u (by decide) s
  have hop : (scanSymbol (s ++ ')' :: u) <|> scanWord operatorWords (s ++ ')' :: u)) =
      (scanSymbol s <|> scanWord operatorWords s).map (Prod.map id (· ++ ')' :: u)) := by
    rw [scanSymbol_append_close, hwords]
    cases scanSymbol s <;> rfl
  unfold scanOperator
  rw [hop]
  cases scanSymbol s <|> scanWord operatorWords s with
  | none => rfl
  | some found =>
    simp [scanModifier_append_close]

/-! ### Operands -/

theorem scanDigits_append_close (s : List Char) :
    Numeral.scanDigits (s ++ ')' :: u) = Prod.map id (· ++ ')' :: u) (Numeral.scanDigits s) := by
  rw [Numeral.scanDigits, takeWhile_append_close u (by decide),
    dropWhile_append_close u (by decide)]
  rfl

theorem scanMinus_append_close (s : List Char) :
    Numeral.scanMinus (s ++ ')' :: u) = Prod.map id (· ++ ')' :: u) (Numeral.scanMinus s) := by
  fun_cases Numeral.scanMinus s with
  | case1 => rfl
  | case2 =>
    rw [Numeral.scanMinus.eq_2 _ (ne_cons_of_close u (by decide) ‹_›)]
    rfl

theorem scanSign_append_close (s : List Char) :
    Numeral.scanSign (s ++ ')' :: u) = Prod.map id (· ++ ')' :: u) (Numeral.scanSign s) := by
  fun_cases Numeral.scanSign s with
  | case1 => rfl
  | case2 =>
    rw [Numeral.scanSign.eq_2 _ (ne_cons_of_close u (by decide) ‹_›), scanMinus_append_close]

theorem scanFraction_append_close (s : List Char) :
    Numeral.scanFraction (s ++ ')' :: u) =
      Prod.map id (· ++ ')' :: u) (Numeral.scanFraction s) := by
  fun_cases Numeral.scanFraction s with
  | case1 r tail h =>
    rw [List.cons_append, Numeral.scanFraction, scanDigits_append_close, h]
    rfl
  | case2 r h =>
    rw [List.cons_append, Numeral.scanFraction, scanDigits_append_close]
    generalize Numeral.scanDigits r = found at h
    obtain ⟨_ | ⟨d, digits⟩, t⟩ := found
    · exact absurd rfl (h t)
    · rfl
  | case3 =>
    rw [Numeral.scanFraction.eq_2 _ (ne_cons_of_close u (by decide) ‹_›)]
    rfl

theorem scanExponent_append_close (s : List Char) :
    Numeral.scanExponent (s ++ ')' :: u) =
      Prod.map id (· ++ ')' :: u) (Numeral.scanExponent s) := by
  cases s with
  | nil => rfl
  | cons e r =>
    rw [List.cons_append, Numeral.scanExponent, Numeral.scanExponent, scanSign_append_close]
    generalize Numeral.scanSign r = sign
    obtain ⟨negative, t⟩ := sign
    split
    · simp only [Prod.map_apply, id_eq, scanDigits_append_close]
      generalize Numeral.scanDigits t = found
      obtain ⟨_ | ⟨d, digits⟩, t⟩ := found <;> rfl
    · rfl

theorem scanNumeral_append_close (s : List Char) :
    scanNumeral (s ++ ')' :: u) = (scanNumeral s).map (Prod.map id (· ++ ')' :: u)) := by
  unfold scanNumeral
  rw [scanMinus_append_close]
  generalize Numeral.scanMinus s = sign
  obtain ⟨negative, t⟩ := sign
  simp only [Prod.map_apply, id_eq, scanDigits_append_close]
  generalize Numeral.scanDigits t = found
  obtain ⟨_ | ⟨d, digits⟩, t⟩ := found
  · rfl
  · simp only [Prod.map_apply, id_eq, scanFraction_append_close]
    generalize Numeral.scanFraction t = found
    obtain ⟨_ | ⟨d, fraction⟩, t⟩ := found
    · rfl
    · simp only [Prod.map_apply, id_eq, scanExponent_append_close]
      rfl

theorem scanSteps_append_close (s : List Char) :
    scanSteps (s ++ ')' :: u) = Prod.map id (· ++ ')' :: u) (scanSteps s) := by
  induction s with
  | nil => rfl
  | cons c s ih =>
    have hnext : (s ++ ')' :: u).head?.any isIdentifierStart = s.head?.any isIdentifierStart := by
      cases s <;> rfl
    rw [List.cons_append, scanSteps, scanSteps, hnext, ih]
    split <;> rfl

theorem scanPath_append_close (s : List Char) :
    scanPath (s ++ ')' :: u) = (scanPath s).map (Prod.map id (· ++ ')' :: u)) := by
  have hfirst : (s ++ ')' :: u).head?.any isIdentifierStart = s.head?.any isIdentifierStart := by
    cases s <;> rfl
  rw [scanPath, scanPath, hfirst, scanSteps_append_close]
  split <;> rfl

/-- A string literal that is closed stays what it is, whatever follows. -/
theorem scanLiteral_append {closing : Char} {escaped : Bool} {s found rest : List Char}
    (h : scanLiteral closing escaped s = some (found, rest)) (t : List Char) :
    scanLiteral closing escaped (s ++ t) = some (found, rest ++ t) := by
  induction s generalizing escaped found with
  | nil => exact absurd h (by simp [scanLiteral])
  | cons c s ih =>
    have step {d : Char} {e : Bool} {found : List Char}
        (h : (scanLiteral closing e s).map (Prod.map (d :: ·) id) = some (found, rest)) :
        (scanLiteral closing e (s ++ t)).map (Prod.map (d :: ·) id) = some (found, rest ++ t) := by
      obtain ⟨⟨f, r⟩, hf, he⟩ := Option.map_eq_some_iff.1 h
      obtain ⟨rfl, rfl⟩ := Prod.mk.inj he
      rw [ih hf]
      rfl
    rw [List.cons_append]
    rw [scanLiteral] at h ⊢
    split at h
    · rw [if_pos ‹_›]
      exact step h
    · rw [if_neg ‹_›]
      split at h
      · obtain ⟨rfl, rfl⟩ := Prod.mk.inj (Option.some.inj h)
        rw [if_pos ‹_›]
      · rw [if_neg ‹_›]
        split at h
        · rw [if_pos ‹_›]
          exact ih h
        · rw [if_neg ‹_›]
          exact step h

theorem scanQuoted_append {closing : Char} {ofFound : List Char → Except FormatError Operand}
    {s rest : List Char} {found : Except FormatError Operand}
    (h : (Text.scanQuoted closing s).map (Prod.map ofFound id) = some (found, rest))
    (t : List Char) :
    (Text.scanQuoted closing (s ++ t)).map (Prod.map ofFound id) = some (found, rest ++ t) := by
  obtain ⟨⟨f, r⟩, hf, he⟩ := Option.map_eq_some_iff.1 h
  obtain ⟨rfl, rfl⟩ := Prod.mk.inj he
  rw [Text.scanQuoted, scanLiteral_append hf]
  rfl

theorem scanOperand_append_close {s rest : List Char} {found : Except FormatError Operand}
    (h : scanOperand s = some (found, rest)) :
    scanOperand (s ++ ')' :: u) = some (found, rest ++ ')' :: u) := by
  fun_cases scanOperand s with
  | case1 =>
    obtain ⟨rfl, rfl⟩ := Prod.mk.inj (Option.some.inj h)
    rfl
  | case2 =>
    obtain ⟨rfl, rfl⟩ := Prod.mk.inj (Option.some.inj h)
    rfl
  | case3 s => exact scanQuoted_append h _
  | case4 s => exact scanQuoted_append h _
  | case5 =>
    rename_i hvalue hkey hdouble hsingle
    rw [scanOperand.eq_5 s hvalue hkey hdouble hsingle] at h
    rw [scanOperand.eq_5 _ (ne_cons_cons_of_close u (by decide) (by decide) hvalue)
      (ne_cons_cons_of_close u (by decide) (by decide) hkey)
      (ne_cons_of_close u (by decide) hdouble) (ne_cons_of_close u (by decide) hsingle),
      scanWord_append_close u (by decide), scanNumeral_append_close, scanPath_append_close]
    cases hword : scanWord literalWords s with
    | some x =>
      rw [hword] at h
      obtain ⟨rfl, rfl⟩ := Prod.mk.inj (Option.some.inj h)
      rfl
    | none =>
      cases hnumeral : scanNumeral s with
      | some x =>
        rw [hword, hnumeral] at h
        obtain ⟨rfl, rfl⟩ := Prod.mk.inj (Option.some.inj h)
        rfl
      | none =>
        rw [hword, hnumeral] at h
        obtain ⟨⟨f, r⟩, hf, he⟩ := Option.map_eq_some_iff.1 h
        obtain ⟨rfl, rfl⟩ := Prod.mk.inj he
        rw [hf]
        rfl

end RecordQuery
