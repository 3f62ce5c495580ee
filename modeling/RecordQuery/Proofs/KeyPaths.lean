import Mathlib.Tactic.Tauto
import RecordQuery.KeyPath

/-! Key paths and their texts. A valid path has identifiers for steps, so there is no dot in a step
and no white space in its text: the text splits into the steps again, and reading it gives the path
back. Reading a text and checking the path that the text spells are two ways to the same answer, and
no path that is not valid is ever read, whatever its own text may be read as. -/

namespace RecordQuery

/-! ### Letters and digits -/

section

variable {c : Char}

theorem isUpper_iff : c.isUpper = true ↔ 65 ≤ c.toNat ∧ c.toNat ≤ 90 := decide_eq_true_iff

theorem isLower_iff : c.isLower = true ↔ 97 ≤ c.toNat ∧ c.toNat ≤ 122 :=
  Bool.and_eq_true_iff.trans (and_congr decide_eq_true_iff decide_eq_true_iff)

theorem isAlpha_iff : c.isAlpha = true ↔ c.isUpper = true ∨ c.isLower = true :=
  Bool.or_eq_true_iff

theorem isIdentifierChar_iff : isIdentifierChar c = true ↔
    c.isUpper = true ∨ c.isLower = true ∨ c.isDigit = true ∨ c = '_' := by
  simp only [isIdentifierChar, Char.isAlphanum, Bool.or_eq_true, isAlpha_iff, beq_iff_eq, or_assoc]

theorem toLower_of_not_isUpper (h : c.isUpper = false) : c.toLower = c :=
  dif_neg (of_decide_eq_false h)

theorem isLower_toLower (h : c.isUpper = true) : c.toLower.isLower = true := by
  have hvalue : c.toLower.toNat = (c.toNat + 32) % 2 ^ 32 :=
    congrArg Char.toNat (dif_pos (of_decide_eq_true h))
  rw [isUpper_iff] at h
  rw [isLower_iff, hvalue]
  omega

theorem isIdentifierChar_toLower (c : Char) :
    isIdentifierChar c.toLower = isIdentifierChar c := by
  cases hupper : c.isUpper with
  | false => rw [toLower_of_not_isUpper hupper]
  | true =>
    have hlower := isLower_toLower hupper
    rw [isIdentifierChar_iff.2 (.inl hupper), isIdentifierChar_iff.2 (.inr (.inl hlower))]

theorem isAlpha_toLower (c : Char) : c.toLower.isAlpha = c.isAlpha := by
  cases hupper : c.isUpper with
  | false => rw [toLower_of_not_isUpper hupper]
  | true => rw [isAlpha_iff.2 (.inl hupper), isAlpha_iff.2 (.inr (isLower_toLower hupper))]

theorem toLower_of_not_isAlpha (h : c.isAlpha = false) : c.toLower = c :=
  toLower_of_not_isUpper (Bool.or_eq_false_iff.1 h).1

theorem isAlpha_of_isDigit (h : c.isDigit = true) : c.isAlpha = false := by
  rw [Char.isDigit_iff_toNat] at h
  rw [Bool.eq_false_iff, ne_eq, isAlpha_iff, isUpper_iff, isLower_iff]
  have hzero : '0'.toNat = 48 := rfl
  have hnine : '9'.toNat = 57 := rfl
  omega

end

/-- A character that passes a test is none of those that fail it. -/
theorem ne_of_test (test : Char → Bool) {c : Char} (h : test c = true) {cs : List Char}
    (fails : cs.all fun d => !test d) : ∀ d ∈ cs, c ≠ d := by
  rintro d hd rfl
  have := List.all_eq_true.1 fails c hd
  simp [h] at this

/-! ### Identifiers -/

theorem isIdentifierChar_of_start {c : Char} (h : isIdentifierStart c = true) :
    isIdentifierChar c = true := by
  simp only [isIdentifierStart, isIdentifierChar, Char.isAlphanum, Bool.or_eq_true] at *
  tauto

theorem all_isIdentifierChar {step : List Char} (h : isIdentifier step = true) :
    step.all isIdentifierChar = true := by
  cases step with
  | nil => rfl
  | cons c s =>
    simp only [isIdentifier, Bool.and_eq_true] at h
    rw [List.all_cons, isIdentifierChar_of_start h.1.1, h.1.2, Bool.and_self]

theorem map_toLower_ne {step : List Char} (h : isIdentifier step = true) (word : String)
    (hword : word ∈ reservedWords) : step.map Char.toLower ≠ word.toList := by
  cases step with
  | nil => simp [isIdentifier] at h
  | cons c s =>
    simp only [isIdentifier, Bool.and_eq_true, Bool.not_eq_true', isReserved, List.any_eq_false,
      decide_eq_true_eq] at h
    exact h.2 word hword

theorem exists_cons_of_isIdentifier {step : List Char} (h : isIdentifier step = true) :
    ∃ c s, step = c :: s ∧ isIdentifierStart c = true := by
  cases step with
  | nil => simp [isIdentifier] at h
  | cons c s =>
    simp only [isIdentifier, Bool.and_eq_true] at h
    exact ⟨c, s, rfl, h.1.1⟩

theorem mem_intercalate {steps : List (List Char)} (h : ∀ step ∈ steps, isIdentifier step = true) :
    ∀ c ∈ ['.'].intercalate steps, isIdentifierChar c = true ∨ c = '.' := by
  intro c hc
  induction steps with
  | nil => simp at hc
  | cons step steps ih =>
    have hstep := List.all_eq_true.1 (all_isIdentifierChar (h step (by simp)))
    cases steps with
    | nil => exact .inl (hstep c (by simpa using hc))
    | cons next steps =>
      rw [List.intercalate_cons_cons, List.append_assoc, List.mem_append, List.mem_append] at hc
      rcases hc with hc | hc | hc
      · exact .inl (hstep c hc)
      · exact .inr (by simpa using hc)
      · exact ih (fun t ht => h t (List.mem_cons_of_mem step ht)) hc

/-! ### Paths -/

namespace KeyPath

variable {path : KeyPath}

theorem isIdentifier_of_isValid (h : path.isValid = true) :
    ∀ step ∈ path.steps.map String.toList, isIdentifier step = true := by
  simp only [isValid, Bool.and_eq_true, List.all_eq_true] at h
  simpa using h.2

theorem steps_ne_nil_of_isValid (h : path.isValid = true) :
    path.steps.map String.toList ≠ [] := by
  simp only [isValid, Bool.and_eq_true] at h
  simpa using h.1

/-- A valid path begins with a step; behind it stands nothing or a dot. -/
theorem exists_chars_eq (h : path.isValid = true) : ∃ step tail, path.chars = step ++ tail ∧
    isIdentifier step = true ∧ ∀ c ∈ tail.head?, c = '.' := by
  obtain ⟨step, steps, hsteps⟩ := List.exists_cons_of_ne_nil (steps_ne_nil_of_isValid h)
  have hstep := isIdentifier_of_isValid h step (by simp [hsteps])
  rw [chars, hsteps]
  cases steps with
  | nil => exact ⟨step, [], by simp, hstep, by simp⟩
  | cons t ts =>
    exact ⟨step, '.' :: ['.'].intercalate (t :: ts), by simp [List.intercalate_cons_cons], hstep,
      by simp⟩

theorem mem_chars_of_isValid (h : path.isValid = true) :
    ∀ c ∈ path.chars, isIdentifierChar c = true ∨ c = '.' :=
  mem_intercalate (isIdentifier_of_isValid h)

theorem isWhiteSpace_of_mem {c : Char} (h : isIdentifierChar c = true ∨ c = '.') :
    Text.isWhiteSpace c = false := by
  have hzero : '0'.toNat = 48 := rfl
  have hnine : '9'.toNat = 57 := rfl
  rw [isIdentifierChar_iff, isUpper_iff, isLower_iff, Char.isDigit_iff_toNat] at h
  by_cases hc : c = '_' ∨ c = '.'
  · rcases hc with rfl | rfl <;> decide
  · rw [not_or] at hc
    simp only [hc.1, hc.2, or_false] at h
    simp only [Text.isWhiteSpace, Text.CharRanges.contains, Text.whiteSpaceRanges, List.any_cons,
      List.any_nil, Bool.or_false, Bool.or_eq_false_iff, Bool.and_eq_false_iff,
      decide_eq_false_iff_not]
    omega

theorem ofText_text (h : path.isValid = true) : ofText path.text = path := by
  have hdots : ∀ step ∈ path.steps.map String.toList, '.' ∉ step := by
    intro step hstep hdot
    have hall := all_isIdentifierChar (isIdentifier_of_isValid h step hstep)
    exact absurd (List.all_eq_true.1 hall '.' hdot) (by decide)
  rw [ofText, text, String.toList_ofList, chars,
    splitDots_intercalate (steps_ne_nil_of_isValid h) hdots]
  simp [Function.comp_def]

/-- A valid path is read back from its text. -/
theorem parse_text (h : path.isValid = true) : parse path.text = .ok path := by
  have htrim : Text.trim path.chars = path.chars :=
    Text.trim_eq_self
      (fun c hc => isWhiteSpace_of_mem (mem_chars_of_isValid h c (List.mem_of_mem_head? hc)))
      (fun c hc => isWhiteSpace_of_mem (mem_chars_of_isValid h c (List.mem_of_mem_getLast? hc)))
  have htext : String.ofList (Text.trim path.text.toList) = path.text := by
    rw [text, String.toList_ofList, htrim]
  exact parse_eq_ok_iff.2 ⟨by rw [htext, ofText_text h], h⟩

/-- Reading a text and checking the path that it spells agree. A text is read exactly if the path
spelled by it without the white space around it is valid. What is read is that path; the text of the
path is the one without the white space, and is read as the path again. Every valid path is read
from its text, however many steps it has, and a path that is not valid is read from no text. -/
theorem parse_agrees (s : String) (path : KeyPath) :
    let trimmed := String.ofList (Text.trim s.toList)
    ((∃ found, parse s = .ok found) ↔ (ofText trimmed).isValid = true) ∧
    (∀ found, parse s = .ok found →
      found = ofText trimmed ∧ found.text = trimmed ∧ parse found.text = .ok found) ∧
    (path.isValid = true → parse path.text = .ok path) ∧
    (path.isValid = false → ∀ t, parse t ≠ .ok path) := by
  intro trimmed
  refine ⟨?_, fun found hfound => ?_, parse_text, fun hinvalid t ht => ?_⟩
  · constructor
    · rintro ⟨found, hfound⟩
      obtain ⟨rfl, hvalid⟩ := parse_eq_ok_iff.1 hfound
      exact hvalid
    · exact fun hvalid => ⟨_, parse_eq_ok_iff.2 ⟨rfl, hvalid⟩⟩
  · obtain ⟨rfl, hvalid⟩ := parse_eq_ok_iff.1 hfound
    exact ⟨rfl, text_ofText trimmed, parse_text hvalid⟩
  · obtain ⟨-, hvalid⟩ := parse_eq_ok_iff.1 ht
    exact absurd hvalid (by simp [hinvalid])

/-- White space of two kinds around two steps; the same text as one step, which has a dot in it and
is read from nothing; and an empty step between two dots. -/
theorem parse_agrees_dotted :
    let path : KeyPath := ⟨["job", "title"]⟩
    parse "\t job.title\u00a0" = .ok path ∧ path.text = "job.title" ∧
      parse path.text = .ok path ∧ (∀ t, parse t ≠ .ok ⟨["job.title"]⟩) ∧
      ¬ ∃ found, parse "job..title" = .ok found := by
  intro path
  obtain ⟨-, hread, -, hdotted⟩ := parse_agrees "\t job.title\u00a0" ⟨["job.title"]⟩
  obtain ⟨hempty, -, hvalid, -⟩ := parse_agrees "job..title" path
  have hpath : parse "\t job.title\u00a0" = .ok path := by rfl
  refine ⟨hpath, ?_, hvalid (by decide), hdotted (by decide), ?_⟩
  · rw [(hread path hpath).2.1]
    decide
  · rw [hempty]
    decide

end KeyPath

end RecordQuery
