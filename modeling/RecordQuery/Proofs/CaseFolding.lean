import Mathlib.Data.List.Infix
import RecordQuery.Operator

/-! What folding case does to matches. Every character is lower-cased on its own but the capital
sigma, whose form depends on whether it ends a word, and hence on what stands around it. So a text
that begins with, ends with or holds a part need not do so once both are lower-cased: it does if
every sigma of the part ends a word in the text exactly when it does in the part alone, and for the
first two not otherwise. -/

-- To decide what a character is, the tables are walked to their ends.
set_option maxRecDepth 2000

namespace RecordQuery.Text

/-- Whether a capital sigma that stands between two texts ends a word. -/
def endsWord (before after : List Char) : Bool := meetsCased before.reverse && !meetsCased after

/-- Every capital sigma of a text ends a word between two others exactly if it does so in the text
alone. -/
def SigmasKept (s before after : List Char) : Prop :=
  ∀ u v, s = u ++ 'Σ' :: v → endsWord (before ++ u) (v ++ after) = endsWord u v

/-- The lower-case form of a character between two texts. -/
def lowerBetween (before after : List Char) (c : Char) : List Char :=
  if c = 'Σ' then if endsWord before after then ['ς'] else ['σ'] else lowerChar c

/-- The lower-case form of a text between two others. -/
def lowerWithin (before after : List Char) : List Char → List Char
  | [] => []
  | c :: s => lowerBetween before (s ++ after) c ++ lowerWithin (before ++ [c]) after s

/-! ### Parts of a text -/

theorem lowerWithin_append (before after s t : List Char) :
    lowerWithin before after (s ++ t) =
      lowerWithin before (t ++ after) s ++ lowerWithin (before ++ s) after t := by
  induction s generalizing before with
  | nil => simp [lowerWithin]
  | cons c s ih => simp [lowerWithin, ih]

theorem lowerAfter_eq (before s : List Char) :
    lowerAfter before s = lowerWithin before.reverse [] s := by
  induction s generalizing before with
  | nil => rfl
  | cons c s ih => simp [lowerAfter, lowerWithin, ih, lowerBetween, endsWord]

theorem lower_eq (s : List Char) : lower s = lowerWithin [] [] s := lowerAfter_eq [] s

/-- A text is lower-cased part by part, each between the others. -/
theorem lower_append_append (s r t : List Char) :
    lower (s ++ r ++ t) =
      lowerWithin [] (r ++ t) s ++ lowerWithin s t r ++ lowerWithin (s ++ r) [] t := by
  simp [lower_eq, lowerWithin_append]

theorem length_lowerBetween (before after before' after' : List Char) (c : Char) :
    (lowerBetween before after c).length = (lowerBetween before' after' c).length := by
  unfold lowerBetween
  split
  · split <;> split <;> rfl
  · rfl

theorem length_lowerWithin (before after before' after' s : List Char) :
    (lowerWithin before after s).length = (lowerWithin before' after' s).length := by
  induction s generalizing before before' with
  | nil => rfl
  | cons c s ih =>
    rw [lowerWithin, lowerWithin, List.length_append, List.length_append,
      length_lowerBetween before _ before' (s ++ after'), ih _ (before' ++ [c])]

theorem lowerBetween_eq_iff {before after before' after' : List Char} {c : Char} :
    lowerBetween before after c = lowerBetween before' after' c ↔
      (c = 'Σ' → endsWord before after = endsWord before' after') := by
  unfold lowerBetween
  by_cases hc : c = 'Σ'
  · cases endsWord before after <;> cases endsWord before' after' <;> simp [hc]
  · simp [hc]

/-- The places of a sigma in a text are its first character and those in the rest. -/
theorem forall_sigma_cons {c : Char} {s : List Char} {P : List Char → List Char → Prop} :
    (∀ u v, c :: s = u ++ 'Σ' :: v → P u v) ↔
      (c = 'Σ' → P [] s) ∧ ∀ u v, s = u ++ 'Σ' :: v → P (c :: u) v := by
  constructor
  · intro h
    exact ⟨fun hc => h [] s (by rw [hc]; rfl), fun u v hs => h (c :: u) v (by rw [hs]; rfl)⟩
  · rintro ⟨hfirst, hrest⟩ u v h
    cases u with
    | nil =>
      obtain ⟨hc, rfl⟩ := List.cons.inj h
      exact hfirst hc
    | cons d u =>
      obtain ⟨rfl, hs⟩ := List.cons.inj h
      exact hrest u v hs

/-- Two contexts give a text one form if they agree on its sigmas, and only then. -/
theorem lowerWithin_eq_iff {before after before' after' s : List Char} :
    lowerWithin before after s = lowerWithin before' after' s ↔
      ∀ u v, s = u ++ 'Σ' :: v →
        endsWord (before ++ u) (v ++ after) = endsWord (before' ++ u) (v ++ after') := by
  induction s generalizing before before' with
  | nil => simp [lowerWithin]
  | cons c s ih =>
    have happend : lowerWithin before after (c :: s) = lowerWithin before' after' (c :: s) ↔
        lowerBetween before (s ++ after) c = lowerBetween before' (s ++ after') c ∧
          lowerWithin (before ++ [c]) after s = lowerWithin (before' ++ [c]) after' s :=
      ⟨fun h => List.append_inj h (length_lowerBetween ..), fun h => congrArg₂ _ h.1 h.2⟩
    rw [happend, lowerBetween_eq_iff, ih, forall_sigma_cons]
    simp

/-- Sigmas are kept where a text has the form it has on its own. -/
theorem sigmasKept_iff {s before after : List Char} :
    SigmasKept s before after ↔ lowerWithin before after s = lower s := by
  rw [lower_eq, lowerWithin_eq_iff]
  simp [SigmasKept]

theorem length_lowerWithin_eq (before after s : List Char) :
    (lowerWithin before after s).length = (lower s).length := by
  rw [lower_eq]
  exact length_lowerWithin ..

/-! ### Matches -/

theorem lower_prefix_iff {r t : List Char} :
    lower r <+: lower (r ++ t) ↔ SigmasKept r [] t := by
  have happend : lower (r ++ t) = lowerWithin [] t r ++ lowerWithin r [] t := by
    simpa [lowerWithin] using lower_append_append [] r t
  have hlength := length_lowerWithin_eq [] t r
  rw [sigmasKept_iff, happend]
  constructor
  · intro h
    have hfront := List.prefix_of_prefix_length_le h (List.prefix_append _ _) hlength.ge
    exact (hfront.eq_of_length hlength.symm).symm
  · intro h
    rw [h]
    exact List.prefix_append _ _

theorem lower_suffix_iff {s r : List Char} :
    lower r <:+ lower (s ++ r) ↔ SigmasKept r s [] := by
  have happend : lower (s ++ r) = lowerWithin [] r s ++ lowerWithin s [] r := by
    simpa [lowerWithin] using lower_append_append s r []
  have hlength := length_lowerWithin_eq s [] r
  rw [sigmasKept_iff, happend]
  constructor
  · intro h
    have hsuffix := List.suffix_of_suffix_length_le h (List.suffix_append _ _) hlength.ge
    exact (hsuffix.eq_of_length hlength.symm).symm
  · intro h
    rw [h]
    exact List.suffix_append _ _

theorem lower_infix {s r t : List Char} (h : SigmasKept r s t) :
    lower r <:+: lower (s ++ r ++ t) := by
  rw [lower_append_append, sigmasKept_iff.1 h]
  exact List.infix_append _ _ _

/-! ### Texts in which a part is lost -/

theorem meetsCased_cons (c : Char) (s : List Char) :
    meetsCased (c :: s) =
      if caseIgnorableRanges.contains c then meetsCased s else casedRanges.contains c := by
  cases hc : caseIgnorableRanges.contains c <;> simp [meetsCased, hc]

/-- What is ignorable is passed over. -/
theorem meetsCased_append {s : List Char} (h : s.all caseIgnorableRanges.contains = true)
    (t : List Char) : meetsCased (s ++ t) = meetsCased t := by
  induction s with
  | nil => rfl
  | cons c s ih =>
    rw [List.all_cons, Bool.and_eq_true] at h
    rw [List.cons_append, meetsCased_cons, if_pos h.1, ih h.2]

/-- Nothing behind the first character that is not ignorable matters. -/
theorem meetsCased_append_of_not {s : List Char} (h : ¬ s.all caseIgnorableRanges.contains = true)
    (t : List Char) : meetsCased (s ++ t) = meetsCased s := by
  induction s with
  | nil => exact absurd rfl h
  | cons c s ih =>
    rw [List.cons_append, meetsCased_cons, meetsCased_cons]
    split
    · rename_i hc
      exact ih fun hs => h (by rw [List.all_cons, hc, hs, Bool.and_self])
    · rfl

theorem meetsCased_of_ignorable {s : List Char} (h : s.all caseIgnorableRanges.contains = true) :
    meetsCased s = false := by
  have happend := meetsCased_append h []
  rwa [List.append_nil] at happend

theorem sigma_not_ignorable : caseIgnorableRanges.contains 'Σ' = false := by decide

theorem meetsCased_sigma (s t t' : List Char) :
    meetsCased (s ++ 'Σ' :: t) = meetsCased (s ++ 'Σ' :: t') := by
  have h : ¬ (s ++ ['Σ']).all caseIgnorableRanges.contains = true := by simp [sigma_not_ignorable]
  have hcons (t : List Char) : s ++ 'Σ' :: t = s ++ ['Σ'] ++ t := by simp
  rw [hcons t, hcons t', meetsCased_append_of_not h, meetsCased_append_of_not h]

/-- A sigma that changes its form in some context is the last character that counts, behind a cased
one, or the first one, in front of none. -/
theorem exists_of_not_sigmasKept {r s t : List Char} (h : ¬ SigmasKept r s t) :
    ∃ u v, r = u ++ 'Σ' :: v ∧
      ((v.all caseIgnorableRanges.contains = true ∧ meetsCased u.reverse = true) ∨
        (u.all caseIgnorableRanges.contains = true ∧ meetsCased v = false)) := by
  simp only [SigmasKept, not_forall] at h
  obtain ⟨u, v, hr, hne⟩ := h
  refine ⟨u, v, hr, ?_⟩
  rw [endsWord, endsWord, List.reverse_append] at hne
  by_cases hu : u.reverse.all caseIgnorableRanges.contains = true
  · refine .inr ⟨by simpa using hu, ?_⟩
    rw [meetsCased_of_ignorable hu] at hne
    have hafter : meetsCased (v ++ t) = false := by simp_all
    by_cases hv : v.all caseIgnorableRanges.contains = true
    · exact meetsCased_of_ignorable hv
    · rwa [meetsCased_append_of_not hv] at hafter
  · rw [meetsCased_append_of_not hu] at hne
    have hv : v.all caseIgnorableRanges.contains = true := by
      by_contra hv
      rw [meetsCased_append_of_not hv] at hne
      exact hne rfl
    refine .inl ⟨hv, ?_⟩
    cases hcased : meetsCased u.reverse with
    | true => rfl
    | false => rw [hcased] at hne; exact absurd rfl hne

theorem lowerWithin_sigma (before after u v : List Char) :
    lowerWithin before after (u ++ 'Σ' :: v) = lowerWithin before ('Σ' :: (v ++ after)) u ++
      lowerBetween (before ++ u) (v ++ after) 'Σ' ++
        lowerWithin (before ++ u ++ ['Σ']) after v := by
  simp [lowerWithin_append, lowerWithin]

/-- Where one sigma alone changes its form, the form that it has in the part is found once less. -/
theorem count_lowerWithin {before after u v : List Char}
    (hu : lowerWithin before ('Σ' :: (v ++ after)) u = lowerWithin [] ('Σ' :: v) u)
    (hv : lowerWithin (before ++ u ++ ['Σ']) after v = lowerWithin (u ++ ['Σ']) [] v)
    (hne : endsWord (before ++ u) (v ++ after) ≠ endsWord u v) :
    ∃ c ∈ ['σ', 'ς'], (lower (u ++ 'Σ' :: v)).count c =
      (lowerWithin before after (u ++ 'Σ' :: v)).count c + 1 := by
  rw [lower_eq, lowerWithin_sigma, lowerWithin_sigma, hu]
  simp only [hv, List.append_nil, List.nil_append, List.count_append, lowerBetween, if_true]
  cases hends : endsWord u v with
  | true =>
    have hother : endsWord (before ++ u) (v ++ after) = false := by simp_all
    refine ⟨'ς', by simp, ?_⟩
    simp [hother]
    omega
  | false =>
    have hother : endsWord (before ++ u) (v ++ after) = true := by simp_all
    refine ⟨'σ', by simp, ?_⟩
    simp [hother]
    omega

/-- A text without a sigma has one form in all contexts. -/
theorem lowerWithin_of_ignorable {s : List Char}
    (h : s.all caseIgnorableRanges.contains = true) (before after before' after' : List Char) :
    lowerWithin before after s = lowerWithin before' after' s := by
  rw [lowerWithin_eq_iff]
  rintro u v rfl
  simp [sigma_not_ignorable] at h

theorem lower_letter (before after : List Char) : lowerWithin before after ['a'] = ['a'] := by
  have hletter : lowerChar 'a' = ['a'] := by decide
  simp [lowerWithin, lowerBetween, hletter]

/-- Where one sigma alone changes its form, the part is not found any more. -/
theorem not_infix_of_changed {before after u v first last : List Char}
    (hu : lowerWithin before ('Σ' :: (v ++ after)) u = lowerWithin [] ('Σ' :: v) u)
    (hv : lowerWithin (before ++ u ++ ['Σ']) after v = lowerWithin (u ++ ['Σ']) [] v)
    (hne : endsWord (before ++ u) (v ++ after) ≠ endsWord u v)
    (hcontext : ∀ c ∈ ['σ', 'ς'], c ∉ first ++ last) :
    ¬ lower (u ++ 'Σ' :: v) <:+: first ++ lowerWithin before after (u ++ 'Σ' :: v) ++ last := by
  intro hinfix
  obtain ⟨c, hc, hcount⟩ := count_lowerWithin hu hv hne
  have hle := hinfix.sublist.count_le c
  have hnone := List.count_eq_zero.2 (hcontext c hc)
  simp only [List.count_append] at hle hnone
  omega

/-- If a part does not keep its sigmas in some context, there is a text that holds it, and does not
once both are lower-cased: one with a letter behind the last sigma or in front of the first. -/
theorem exists_lost {r s t : List Char} (h : ¬ SigmasKept r s t) :
    ∃ l, r <:+: l ∧ ¬ lower r <:+: lower l := by
  have hletter (s : List Char) (hs : s.all caseIgnorableRanges.contains = true) :
      meetsCased (s ++ ['a']) = true := by
    rw [meetsCased_append hs]
    decide
  obtain ⟨u, v, rfl, ⟨hv, hu⟩ | ⟨hu, hv⟩⟩ := exists_of_not_sigmasKept h
  · refine ⟨[] ++ (u ++ 'Σ' :: v) ++ ['a'], List.infix_append _ _ _, ?_⟩
    rw [lower_append_append, lower_letter]
    refine not_infix_of_changed (lowerWithin_eq_iff.2 fun u₁ u₂ _ => ?_)
      (lowerWithin_of_ignorable hv ..) ?_ (by simp [lowerWithin])
    · rw [endsWord, endsWord, meetsCased_sigma u₂ _ v]
    · simp [endsWord, hu, hletter v hv, meetsCased_of_ignorable hv]
  · have hu' : u.reverse.all caseIgnorableRanges.contains = true := by simpa using hu
    refine ⟨['a'] ++ (u ++ 'Σ' :: v) ++ [], List.infix_append _ _ _, ?_⟩
    rw [lower_append_append, lower_letter]
    refine not_infix_of_changed (lowerWithin_of_ignorable hu ..)
      (lowerWithin_eq_iff.2 fun v₁ v₂ _ => ?_) ?_ (by simp [lowerWithin])
    · simp only [endsWord, List.reverse_append, List.reverse_cons, List.nil_append,
        List.append_assoc, List.cons_append]
      rw [meetsCased_sigma v₁.reverse _ u.reverse]
    · simp [endsWord, hletter _ hu', meetsCased_of_ignorable hu', hv]

end RecordQuery.Text

namespace RecordQuery.Operator

open Text (SigmasKept lower)

section

variable (l r : String)

theorem lower_string : (Value.string l).lower = .string (String.ofList (lower l.toList)) := rfl

theorem equal_strings (foldCase : Bool) (h : l = r) :
    equal.holds foldCase (.string l) (.string r) = true := by
  subst h
  cases foldCase <;> simp [relates, lower_string, Value.compare]

theorem eq_of_equal (h : equal.holds false (.string l) (.string r) = true) : l = r := by
  simpa [relates, Value.compare] using h

-- The operators of strings are read off the table of all operators here, once for the six
-- equivalences that follow.
theorem relates_beginsWith :
    beginsWith.relates (.string l) (.string r) = decide (r.toList <+: l.toList) := rfl

theorem relates_endsWith :
    endsWith.relates (.string l) (.string r) = decide (r.toList <:+ l.toList) := rfl

theorem relates_contains :
    contains.relates (.string l) (.string r) = occursIn r.toList l.toList := rfl

theorem beginsWith_strings :
    beginsWith.holds false (.string l) (.string r) = true ↔ r.toList <+: l.toList := by
  simp [relates_beginsWith]

theorem beginsWith_folded : beginsWith.holds true (.string l) (.string r) = true ↔
    lower r.toList <+: lower l.toList := by
  simp [relates_beginsWith, lower_string]

theorem endsWith_strings :
    endsWith.holds false (.string l) (.string r) = true ↔ r.toList <:+ l.toList := by
  simp [relates_endsWith]

theorem endsWith_folded : endsWith.holds true (.string l) (.string r) = true ↔
    lower r.toList <:+ lower l.toList := by
  simp [relates_endsWith, lower_string]

theorem contains_strings :
    contains.holds false (.string l) (.string r) = true ↔ r.toList <:+: l.toList := by
  simp [relates_contains, occursIn_iff]

theorem contains_folded : contains.holds true (.string l) (.string r) = true ↔
    lower r.toList <:+: lower l.toList := by
  simp [relates_contains, lower_string, occursIn_iff]

/-- Folding case loses no equality. It keeps the match of a text that begins or ends with another
exactly when the sigmas of the other one are kept, and that of a text that holds another if they are
kept at some place where it does; and those that are kept everywhere are the ones that no text loses
by folding. -/
theorem folded_match :
    (equal.holds false (.string l) (.string r) = true →
      equal.holds true (.string l) (.string r) = true) ∧
    (beginsWith.holds false (.string l) (.string r) = true →
      (beginsWith.holds true (.string l) (.string r) = true ↔
        ∃ t, l.toList = r.toList ++ t ∧ SigmasKept r.toList [] t)) ∧
    (endsWith.holds false (.string l) (.string r) = true →
      (endsWith.holds true (.string l) (.string r) = true ↔
        ∃ s, l.toList = s ++ r.toList ∧ SigmasKept r.toList s [])) ∧
    ((∃ s t, l.toList = s ++ r.toList ++ t ∧ SigmasKept r.toList s t) →
      contains.holds true (.string l) (.string r) = true) ∧
    ((∀ l : String, contains.holds false (.string l) (.string r) = true →
        contains.holds true (.string l) (.string r) = true) ↔
      ∀ s t, SigmasKept r.toList s t) := by
  simp only [beginsWith_strings, beginsWith_folded, endsWith_strings, endsWith_folded,
    contains_strings, contains_folded]
  refine ⟨fun h => equal_strings l r true (eq_of_equal l r h), ?_, ?_, ?_, ?_⟩
  · rintro ⟨t, ht⟩
    simp only [← ht, Text.lower_prefix_iff, List.append_cancel_left_eq, exists_eq_left']
  · rintro ⟨s, hs⟩
    simp only [← hs, Text.lower_suffix_iff, List.append_cancel_right_eq, exists_eq_left']
  · rintro ⟨s, t, hl, hkept⟩
    rw [hl]
    exact Text.lower_infix hkept
  · constructor
    · intro h s t
      by_contra hkept
      obtain ⟨l, hinfix, hlost⟩ := Text.exists_lost hkept
      have := h (String.ofList l)
      rw [String.toList_ofList] at this
      exact hlost (this hinfix)
    · rintro hkept l ⟨s, t, hl⟩
      rw [← hl]
      exact Text.lower_infix (hkept s t)

end

/-- A final sigma that stays final, one that does not, and one that does in the second place where
it stands. -/
theorem folded_match_sigmas :
    endsWith.holds true (.string "ΣΑΣ") (.string "ΑΣ") = true ∧
      ¬ SigmasKept "ΑΣ".toList [] "Α".toList ∧
      contains.holds true (.string "ΑΣΑ ΑΣ") (.string "ΑΣ") = true := by
  obtain ⟨-, -, hends, -⟩ := folded_match "ΣΑΣ" "ΑΣ"
  obtain ⟨-, hbegins, -⟩ := folded_match "ΑΣΑ" "ΑΣ"
  obtain ⟨-, -, -, hcontains, -⟩ := folded_match "ΑΣΑ ΑΣ" "ΑΣ"
  refine ⟨(hends (by decide)).2 ⟨"Σ".toList, rfl, ?_⟩, fun hkept => ?_,
    hcontains ⟨"ΑΣΑ ".toList, [], rfl, ?_⟩⟩
  · exact Text.sigmasKept_iff.2 (by decide)
  · exact absurd ((hbegins (by decide)).2 ⟨"Α".toList, rfl, hkept⟩) (by decide)
  · exact Text.sigmasKept_iff.2 (by decide)

/-- A word that goes on behind the sigma that ends the other. -/
theorem folding_loses_match : ¬ ∀ (l r : String),
    ∀ op ∈ [equal, beginsWith, contains, endsWith],
      op.holds false (.string l) (.string r) = true → op.holds true (.string l) (.string r) = true := by
  intro h
  exact absurd (h "ΑΣΑ" "ΑΣ" beginsWith (by simp) (by decide)) (by decide)

end RecordQuery.Operator
