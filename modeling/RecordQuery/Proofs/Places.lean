import Mathlib.Data.List.Forall2
import RecordQuery.Proofs.Accepted
import RecordQuery.Proofs.Reading

/-! The places of operands in a text. Two operands stand on the two sides of an operator, and
between comparisons there are only blanks, parentheses and the signs and words of connectives,
negations and constants. What is read as an operand begins with none of these, so a text determines
the places of its operands. A predicate that is read has its operands there, one by one. -/

namespace RecordQuery

open Text (skipBlank)

/-! ### How an operand begins -/

/-- A path is a run of identifier characters and dots that ends behind a whole step. -/
theorem scanPath_eq_some {s found rest : List Char} (h : scanPath s = some (found, rest)) :
    s = found ++ rest ∧ (∀ c ∈ found, isIdentifierChar c = true ∨ c = '.') ∧
      ∀ c ∈ rest.head?, isIdentifierChar c = false := by
  rw [scanPath, Option.ite_none_right_eq_some] at h
  replace h := Option.some.inj h.2
  fun_induction scanSteps s generalizing found rest with
  | case1 =>
    obtain ⟨rfl, rfl⟩ := Prod.mk.inj h
    simp
  | case2 c s hc found' rest' hsteps ih =>
    obtain ⟨rfl, rfl⟩ := Prod.mk.inj h
    obtain ⟨rfl, hall, hstop⟩ := ih hsteps
    rw [Bool.or_eq_true, Bool.and_eq_true, beq_iff_eq] at hc
    exact ⟨rfl, List.forall_mem_cons.2 ⟨hc.imp_right And.left, hall⟩, hstop⟩
  | case3 c s hc =>
    obtain ⟨rfl, rfl⟩ := Prod.mk.inj h
    rw [Bool.or_eq_true, not_or, Bool.not_eq_true] at hc
    simpa using hc.1

theorem KeyPath.chars_of_parse {found : List Char} {path : KeyPath}
    (h : KeyPath.parse (String.ofList found) = .ok path)
    (hfound : ∀ c ∈ found, isIdentifierChar c = true ∨ c = '.') : path.chars = found := by
  have htrim : Text.trim found = found :=
    Text.trim_eq_self
      (fun c hc => isWhiteSpace_of_mem (hfound c (List.mem_of_mem_head? hc)))
      (fun c hc => isWhiteSpace_of_mem (hfound c (List.mem_of_mem_getLast? hc)))
  have hpath : KeyPath.ofText (String.ofList found) = path := by
    have hread := (parse_eq_ok_iff.1 h).1
    rwa [String.toList_ofList, htrim] at hread
  have htext := KeyPath.text_ofText (String.ofList found)
  rw [hpath, text] at htext
  exact String.ofList_injective htext

/-- A path that is read begins with a step, behind which no identifier goes on. -/
theorem exists_step_of_scanPath {s found rest : List Char} {path : KeyPath}
    (h : scanPath s = some (found, rest)) (hpath : KeyPath.parse (String.ofList found) = .ok path) :
    ∃ step t, s = step ++ t ∧ isIdentifier step = true ∧
      ∀ c ∈ t.head?, isIdentifierChar c = false := by
  obtain ⟨rfl, hchars, hstop⟩ := scanPath_eq_some h
  obtain ⟨step, tail, hfound, hstep, htail⟩ :=
    path.exists_chars_eq (KeyPath.isValid_of_parse hpath)
  rw [KeyPath.chars_of_parse hpath hchars] at hfound
  refine ⟨step, tail ++ rest, by rw [hfound, List.append_assoc], hstep, fun c hc => ?_⟩
  cases tail with
  | nil => exact hstop c hc
  | cons d tail =>
    obtain rfl : d = c := Option.some.inj hc
    rw [htail d rfl]
    rfl

theorem exists_cons_of_scanNumeral {s rest : List Char} {n : Numeral}
    (h : scanNumeral s = some (n, rest)) : ∃ c t, s = c :: t ∧ (c.isDigit = true ∨ c ∈ ['-']) := by
  cases s with
  | nil => exact absurd h (by simp [scanNumeral, Numeral.scanMinus, Numeral.scanDigits])
  | cons c t =>
    refine ⟨c, t, rfl, ?_⟩
    by_contra hc
    obtain ⟨hdigit, hminus⟩ := not_or.1 hc
    rw [scanNumeral, Numeral.scanMinus_of_ne (by simpa using hminus)] at h
    simp [Numeral.scanDigits, hdigit] at h

/-! ### Between comparisons -/

/-- The characters of blanks, parentheses, connectives and negations. -/
def fillerSigns : List Char := [' ', '\t', '\r', '\n', '(', ')', '!', '&', '|']

/-- The words of connectives, negations and constants. -/
def fillerWords : List String := ["and", "or", "not", "truepredicate", "falsepredicate"]

/-- The text behind one piece of what may stand between comparisons. -/
inductive Filler : List Char → List Char → Prop
  | sign {c s} : c ∈ fillerSigns → Filler (c :: s) s
  | word {w s rest} : w ∈ fillerWords → afterKeyword w.toList s = some rest → Filler s rest

theorem isAlpha_fillerSigns {c : Char} (hc : c ∈ fillerSigns) : c.isAlpha = false := by
  have hall : fillerSigns.all fun c => !c.isAlpha := by decide
  simpa using List.all_eq_true.1 hall c hc

theorem all_isIdentifierChar_fillerWords :
    ∀ w ∈ fillerWords, w.toList.all isIdentifierChar = true := by decide

theorem afterKeyword_fillerWords {w : String} (hw : w ∈ fillerWords) {s : List Char}
    (hs : ∀ c ∈ s.head?, c.isAlpha = false) : afterKeyword w.toList s = none := by
  have halpha := (by decide : ∀ w ∈ fillerWords, w.toList.head?.any Char.isAlpha = true) w hw
  cases hlist : w.toList with
  | nil => simp [hlist] at halpha
  | cons d word =>
    cases s with
    | nil => rfl
    | cons c s => exact afterKeyword_of_not_isAlpha (by simpa [hlist] using halpha) (hs c rfl)

/-- What is read as an operand begins with a character of no word and no filler, or else with a run
of identifier characters that is none of the words. -/
theorem front_of_scanOperand {s rest : List Char} {o : Operand}
    (h : scanOperand s = some (.ok o, rest)) :
    (∃ c t, s = c :: t ∧ c.isAlpha = false ∧ c ∉ fillerSigns) ∨
    ∃ c run t, s = c :: run ++ t ∧ isIdentifierStart c = true ∧ run.all isIdentifierChar = true ∧
      (∀ c ∈ t.head?, isIdentifierChar c = false) ∧
      ∀ w ∈ fillerWords, (c :: run).map Char.toLower ≠ w.toList := by
  generalize hfound : Except.ok o = found at h
  cases scannedOperand_of_scanOperand h with
  | value | key => exact .inl ⟨'%', _, rfl, by decide⟩
  | @string closing s _ _ hclosing =>
    rcases List.mem_pair.1 hclosing with rfl | rfl
    · exact .inl ⟨'"', s, rfl, by decide⟩
    · exact .inl ⟨'\'', s, rfl, by decide⟩
  | word hword =>
    obtain ⟨word, hmem, hafter⟩ := mem_of_scanWord hword
    obtain ⟨run, rfl, hrun, -, hstop⟩ :=
      exists_run_of_afterKeyword (all_isIdentifierChar_literalWords _ hmem) hafter
    obtain ⟨c, run, rfl, hc, hall, -⟩ := run_of_literalWords hmem hrun
    refine .inr ⟨c, run, _, rfl, hc, hall, hstop, fun w hw he => ?_⟩
    exact (by decide : ∀ v ∈ literalWords, ∀ w ∈ fillerWords, v.1.toList ≠ w.toList) _ hmem w hw
      (hrun.symm.trans he)
  | numeral hnumeral =>
    obtain ⟨c, t, rfl, hc⟩ := exists_cons_of_scanNumeral hnumeral
    refine .inl ⟨c, t, rfl, isAlpha_of_sign (hc.imp_right (by simp_all)), fun hmem => ?_⟩
    exact ne_of_test (fun c => c.isDigit || c ∈ ['-']) (by simpa using hc) (by decide) c hmem rfl
  | path hscan =>
    obtain ⟨path, hpath, rfl⟩ := map_eq_ok_iff.1 hfound.symm
    obtain ⟨step, t, rfl, hstep, hstop⟩ := exists_step_of_scanPath hscan hpath
    obtain ⟨c, run, rfl, hc⟩ := exists_cons_of_isIdentifier hstep
    have hall := all_isIdentifierChar hstep
    rw [List.all_cons, Bool.and_eq_true] at hall
    exact .inr ⟨c, run, t, rfl, hc, hall.2, hstop, fun w hw =>
      map_toLower_ne hstep w ((by decide : ∀ w ∈ fillerWords, w ∈ reservedWords) w hw)⟩

namespace Filler

variable {s t rest : List Char}

/-- What is read as an operand begins with nothing that may stand between comparisons. -/
theorem scanOperand_ne (h : Filler s t) {o : Operand} :
    scanOperand s ≠ some (.ok o, rest) := by
  intro hscan
  rcases front_of_scanOperand hscan with ⟨c, u, rfl, halpha, hsign⟩ |
    ⟨c, run, u, rfl, hc, hall, hstop, hne⟩
  · cases h with
    | sign hc => exact hsign hc
    | word hw hafter =>
      rw [afterKeyword_fillerWords hw (by simpa using halpha)] at hafter
      exact absurd hafter (by simp)
  · cases h with
    | sign hsign => exact ne_of_test isIdentifierStart hc (by decide) c hsign rfl
    | word hw hafter =>
      have hrun : (c :: run).all isIdentifierChar = true := by
        rw [List.all_cons, isIdentifierChar_of_start hc, hall, Bool.and_self]
      rw [afterKeyword_append (all_isIdentifierChar_fillerWords _ hw) hrun hstop,
        if_neg (hne _ hw)] at hafter
      exact absurd hafter (by simp)

/-- One piece ends in one way only. -/
theorem rest_unique (h : Filler s rest) (h' : Filler s t) : rest = t := by
  cases h with
  | sign hc =>
    cases h' with
    | sign => rfl
    | word hw hafter =>
      rw [afterKeyword_fillerWords hw (by simpa using isAlpha_fillerSigns hc)] at hafter
      exact absurd hafter (by simp)
  | word hw hafter =>
    cases h' with
    | sign hc =>
      rw [afterKeyword_fillerWords hw (by simpa using isAlpha_fillerSigns hc)] at hafter
      exact absurd hafter (by simp)
    | word hw' hafter' =>
      have heq := eq_of_afterKeyword (all_isIdentifierChar_fillerWords _ hw)
        (all_isIdentifierChar_fillerWords _ hw') hafter hafter'
      rw [heq, hafter'] at hafter
      exact (Option.some.inj hafter).symm

theorem not_nil : ¬ Filler [] t := by
  generalize hs : [] = s
  rintro (_ | ⟨hw, hafter⟩)
  · exact absurd hs (by simp)
  · rw [← hs, afterKeyword_fillerWords hw (by simp)] at hafter
    exact absurd hafter (by simp)

theorem of_afterNot (h : afterNot s = some rest) : Filler s rest := by
  unfold afterNot at h
  split at h
  · exact absurd h (by simp)
  · obtain rfl := Option.some.inj h
    exact .sign (by decide)
  · exact .word (by decide : "not" ∈ fillerWords) h

theorem of_scanWord {value : Bool}
    (h : scanWord Predicate.constantWords s = some (value, rest)) : Filler s rest := by
  obtain ⟨word, hmem, hafter⟩ := mem_of_scanWord h
  exact .word ((by decide : ∀ w ∈ Predicate.constantWords, w.1 ∈ fillerWords) _ hmem) hafter

end Filler

/-! ### Operands one behind another -/

namespace Operand

/-- The places of the operands in a text up to `rest`: the texts from there on. -/
inductive Places : List Char → List (List Char) → List Char → Prop
  | nil {s} : Places s [] s
  | filler {s t places rest} : Filler s t → Places t places rest → Places s places rest
  | comparison {s left t op u right v places rest} : scanOperand s = some (.ok left, t) →
      scanOperator (skipBlank t) = some (op, u) →
      scanOperand (skipBlank u) = some (.ok right, v) → Places v places rest →
      Places s (s :: skipBlank u :: places) rest

namespace Places

variable {s t rest : List Char} {places places' : List (List Char)}

theorem append (h : Places s places t) (h' : Places t places' rest) :
    Places s (places ++ places') rest := by
  induction h with
  | nil => exact h'
  | filler hfiller _ ih => exact .filler hfiller (ih h')
  | comparison hleft hop hright _ ih => exact .comparison hleft hop hright (ih h')

theorem of_skipBlank (s : List Char) : Places s [] (skipBlank s) := by
  induction s with
  | nil => exact .nil
  | cons c s ih =>
    rw [skipBlank, List.dropWhile_cons]
    split
    · rename_i hblank
      have hsign : c ∈ fillerSigns := by
        simp only [Text.isBlank, Bool.or_eq_true, beq_iff_eq] at hblank
        simp only [fillerSigns, List.mem_cons]
        tauto
      exact .filler (.sign hsign) ih
    · exact .nil

theorem of_afterConnective {kind : Connective}
    (h : Predicate.afterConnective kind s = some rest) : Places s [] rest := by
  cases kind with
  | and =>
    replace h : afterAnd s = some rest := h
    unfold afterAnd at h
    split at h
    · obtain rfl := Option.some.inj h
      exact .filler (.sign (by decide)) (.filler (.sign (by decide)) .nil)
    · exact .filler (.word (by decide : "and" ∈ fillerWords) h) .nil
  | or =>
    replace h : afterOr s = some rest := h
    unfold afterOr at h
    split at h
    · obtain rfl := Option.some.inj h
      exact .filler (.sign (by decide)) (.filler (.sign (by decide)) .nil)
    · exact .filler (.word (by decide : "or" ∈ fillerWords) h) .nil

theorem eq_nil (h : Places [] places rest) : places = [] := by
  generalize hs : [] = s at h
  cases h with
  | nil => rfl
  | filler hfiller =>
    rw [← hs] at hfiller
    exact absurd hfiller Filler.not_nil
  | comparison hleft =>
    rw [← hs] at hleft
    rcases front_of_scanOperand hleft with ⟨_, _, hfront, -⟩ | ⟨_, _, _, hfront, -⟩
    · exact absurd hfront (by simp)
    · exact absurd hfront (by simp)

/-- A text determines the places of its operands. -/
theorem unique (h : Places s places []) (h' : Places s places' []) : places = places' := by
  generalize hrest : [] = rest at h
  -- at each step the other list goes on in the same way, since no operand begins with a filler
  induction h generalizing places' with
  | nil =>
    subst hrest
    exact h'.eq_nil.symm
  | filler hfiller h ih =>
    cases h' with
    | nil => exact absurd hfiller Filler.not_nil
    | filler hfiller' h' =>
      obtain rfl := hfiller.rest_unique hfiller'
      exact ih h' hrest
    | comparison hleft => exact absurd hleft hfiller.scanOperand_ne
  | comparison hleft hop hright h ih =>
    cases h' with
    | nil => exact (Places.comparison hleft hop hright h).eq_nil
    | filler hfiller => exact absurd hleft hfiller.scanOperand_ne
    | comparison hleft' hop' hright' h' =>
      obtain ⟨-, rfl⟩ := Prod.mk.inj (Option.some.inj (hleft.symm.trans hleft'))
      obtain ⟨-, rfl⟩ := Prod.mk.inj (Option.some.inj (hop.symm.trans hop'))
      obtain ⟨-, rfl⟩ := Prod.mk.inj (Option.some.inj (hright.symm.trans hright'))
      rw [ih h' hrest]

end Places

/-- Operands that stand one by one at the places in a text up to `rest`, where each is in a relation
to the text from its place on. -/
def Along (R : List Char → Operand → Prop) (s : List Char) (os : List Operand)
    (rest : List Char) : Prop :=
  ∃ places, Places s places rest ∧ List.Forall₂ R places os

namespace Along

variable {R R' : List Char → Operand → Prop} {s t rest : List Char} {os os' : List Operand}

theorem nil (h : Places s [] rest) : Along R s [] rest := ⟨[], h, .nil⟩

theorem append (h : Along R s os t) (h' : Along R t os' rest) : Along R s (os ++ os') rest := by
  obtain ⟨places, hplaces, hos⟩ := h
  obtain ⟨places', hplaces', hos'⟩ := h'
  exact ⟨_, hplaces.append hplaces', List.rel_append hos hos'⟩

/-- There may be something else in front. -/
theorem behind (h : Along R t os rest) (front : Places s [] t) : Along R s os rest :=
  (nil front).append h

/-- Operands that take the places of others. -/
theorem replace {S : Operand → Operand → Prop} (h : Along R s os rest)
    (hreplace : List.Forall₂ S os os') (hS : ∀ t o o', R t o → S o o' → R' t o') :
    Along R' s os' rest := by
  obtain ⟨places, hplaces, hos⟩ := h
  refine ⟨places, hplaces, ?_⟩
  clear hplaces
  induction hos generalizing os' with
  | nil =>
    cases hreplace
    exact .nil
  | cons ho _ ih =>
    cases hreplace with
    | cons ho' hos' => exact .cons (hS _ _ _ ho ho') (ih hos')

end Along

/-- The operand is what is found at the front of the text. -/
def FoundAt (s : List Char) (o : Operand) : Prop := ∃ rest, scanOperand s = some (.ok o, rest)

end Operand

/-! ### The operands of a predicate -/

namespace Predicate

open Operand (Along FoundAt Places)

theorem along_of_scanComparison {s rest : List Char} {found : Read}
    (h : scanComparison s = some (found, rest)) :
    ∀ p, found = .ok p → Along FoundAt s p.leaves rest := by
  intro p hp
  obtain ⟨left, t, op, foldCase, u, right, hleft, hop, hright, rfl⟩ := exists_of_scanComparison h
  simp only [bind_eq_ok_iff] at hp
  obtain ⟨l, rfl, b, rfl, r, rfl, hp⟩ := hp
  obtain rfl := Except.ok.inj hp
  rw [leaves_comparison]
  exact ⟨_, .comparison hleft hop hright .nil,
    .cons ⟨_, hleft⟩ (.cons ⟨_, hright⟩ .nil)⟩

theorem along_of_linked {kind : Connective} {s rest : List Char} {more : List Read}
    {ps : List Predicate} (hps : more = ps.map .ok)
    (h : Linked kind (fun s found rest => ∀ p, found = .ok p → Along FoundAt s p.leaves rest)
      s more rest) : Along FoundAt s (ps.flatMap leaves) rest := by
  induction h generalizing ps with
  | nil =>
    obtain rfl := List.map_eq_nil_iff.1 hps.symm
    exact .nil .nil
  | @cons s r found t more rest hsign hfound _ ih =>
    cases ps with
    | nil => exact absurd hps (by simp)
    | cons p ps =>
      obtain ⟨hp, hmore⟩ := List.cons.inj hps
      have hfront : Places s [] (skipBlank r) :=
        ((Places.of_skipBlank s).append (.of_afterConnective hsign)).append (.of_skipBlank r)
      rw [List.flatMap_cons]
      exact ((hfound p hp).behind hfront).append (ih hmore)

theorem invariant_along :
    Invariant fun s found rest => ∀ p, found = .ok p → Along FoundAt s p.leaves rest where
  comparison := along_of_scanComparison
  constant hword p hp := by
    obtain rfl := Except.ok.inj hp
    rw [leaves_constant]
    exact .nil (.filler (.of_scanWord hword) .nil)
  group {s _ t rest} h ht p hp := by
    have hopen : Places ('(' :: s) [] (skipBlank s) :=
      .filler (.sign (by decide)) (.of_skipBlank s)
    have hclose : Places t [] rest := by
      have hblank := Places.of_skipBlank t
      rw [ht] at hblank
      exact hblank.append (.filler (.sign (by decide)) .nil)
    simpa using ((h p hp).behind hopen).append (.nil hclose)
  negation {_ r _ _} hnot h p hp := by
    obtain ⟨q, hq, rfl⟩ := map_eq_ok_iff.1 hp
    rw [leaves_not]
    exact (h q hq).behind (.filler (.of_afterNot hnot) (.of_skipBlank r))
  chain hfirst hmore p hp := by
    obtain ⟨ps, hall, rfl⟩ := map_eq_ok_iff.1 hp
    rw [mapM_id_eq_ok_iff] at hall
    cases ps with
    | nil => exact absurd hall (by simp)
    | cons q qs =>
      obtain ⟨hq, hqs⟩ := List.cons.inj hall
      rw [leaves_compound, List.flatMap_cons]
      exact (hfirst q hq).append (along_of_linked hqs hmore)

/-- A predicate that is read has its operands at the places in the text. -/
theorem along_of_parse {format : String} {p : Predicate} (h : parse format = .ok p) :
    Along FoundAt format.toList p.leaves [] := by
  obtain ⟨rest, hscan, hrest⟩ := exists_scan_of_parse h
  have hfound := invariant_along.finds_scan _ _ _ hscan p rfl
  have hend := Places.of_skipBlank rest
  rw [hrest] at hend
  simpa using (hfound.behind (.of_skipBlank _)).append (.nil hend)

end Predicate

end RecordQuery
