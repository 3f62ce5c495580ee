import RecordQuery.Predicate.Printer
import RecordQuery.Proofs.KeyPaths
import RecordQuery.Proofs.Numerals

/-! How the written tokens are scanned, whatever follows them. A word is recognised in a run of
identifier characters exactly when it is the whole run; hence no identifier is taken for a word it
merely begins with, and a step of a path, which is not reserved, is taken for no word at all. -/

namespace RecordQuery

open Text (isBlank skipBlank)

/-! ### Words -/

/-- In front of what is no identifier character, a word is found in a run of identifier characters
exactly when it is the run. -/
theorem afterKeyword_append {word run rest : List Char} (hword : word.all isIdentifierChar)
    (hrun : run.all isIdentifierChar) (stop : ∀ c ∈ rest.head?, isIdentifierChar c = false) :
    afterKeyword word (run ++ rest) = if run.map Char.toLower = word then some rest else none := by
  induction word generalizing run with
  | nil =>
    cases run with
    | nil =>
      cases rest with
      | nil => rfl
      | cons c rest => simp [afterKeyword, afterWord, stop c (by simp)]
    | cons c run =>
      have hc : isIdentifierChar c = true := by simp_all
      simp [afterKeyword, afterWord, hc]
  | cons w word ih =>
    have hw : isIdentifierChar w = true ∧ word.all isIdentifierChar = true := by simp_all
    cases run with
    | nil =>
      cases rest with
      | nil => rfl
      | cons c rest =>
        have hne : c.toLower ≠ w := by
          intro he
          have := isIdentifierChar_toLower c
          rw [he, hw.1, stop c (by simp)] at this
          exact absurd this (by decide)
        simp [afterKeyword, afterWord, hne]
    | cons c run =>
      have hrun' : run.all isIdentifierChar = true := by simp_all
      have ih := ih hw.2 hrun'
      by_cases hc : c.toLower = w
      · simpa [afterKeyword, afterWord, hc] using ih
      · simp [afterKeyword, afterWord, hc]

/-- The letters of a word are a run of identifier characters that ends behind them. -/
theorem exists_run_of_afterKeyword {word s rest : List Char}
    (hword : word.all isIdentifierChar = true) (h : afterKeyword word s = some rest) :
    ∃ run, s = run ++ rest ∧ run.map Char.toLower = word ∧ run.all isIdentifierChar = true ∧
      ∀ c ∈ rest.head?, isIdentifierChar c = false := by
  obtain ⟨hafter, hstop⟩ := Option.filter_eq_some_iff.1 h
  suffices hrun : ∃ run, s = run ++ rest ∧ run.map Char.toLower = word by
    obtain ⟨run, rfl, rfl⟩ := hrun
    refine ⟨run, rfl, rfl, by simpa [isIdentifierChar_toLower] using hword, fun c hc => ?_⟩
    simpa [Option.mem_def.1 hc] using hstop
  clear h hword
  fun_induction afterWord word s with
  | case1 s => exact ⟨[], Option.some.inj hafter, rfl⟩
  | case2 => exact absurd hafter (by simp)
  | case3 word c s ih =>
    obtain ⟨run, rfl, rfl⟩ := ih hafter
    exact ⟨c :: run, rfl, rfl⟩
  | case4 => exact absurd hafter (by simp)

/-- At most one word stands at the front of a text. -/
theorem eq_of_afterKeyword {word other s rest t : List Char}
    (hword : word.all isIdentifierChar = true) (hother : other.all isIdentifierChar = true)
    (h : afterKeyword word s = some rest) (ht : afterKeyword other s = some t) : word = other := by
  obtain ⟨run, rfl, rfl, hrun, hstop⟩ := exists_run_of_afterKeyword hword h
  rw [afterKeyword_append hother hrun hstop, Option.ite_none_right_eq_some] at ht
  exact ht.1

theorem afterKeyword_of_not_isAlpha {w c : Char} {word s : List Char} (hw : w.isAlpha = true)
    (hc : c.isAlpha = false) : afterKeyword (w :: word) (c :: s) = none := by
  have hne : c.toLower ≠ w := by
    rw [toLower_of_not_isAlpha hc]
    rintro rfl
    simp_all
  simp [afterKeyword, afterWord, hne]

/-- In a run of identifier characters the first word that is the whole run is found. -/
theorem scanWord_append {α : Type} {words : List (String × α)}
    (hwords : ∀ w ∈ words, w.1.toList.all isIdentifierChar) {run rest : List Char}
    (hrun : run.all isIdentifierChar) (stop : ∀ c ∈ rest.head?, isIdentifierChar c = false) :
    scanWord words (run ++ rest) =
      (words.find? fun w => run.map Char.toLower = w.1.toList).map fun w => (w.2, rest) := by
  unfold scanWord
  induction words with
  | nil => rfl
  | cons w words ih =>
    have ih := ih fun v hv => hwords v (List.mem_cons_of_mem w hv)
    have hw := afterKeyword_append (hwords w (by simp)) hrun stop
    by_cases he : run.map Char.toLower = w.1.toList
    · simp [hw, he]
    · simpa [List.findSome?_cons, hw, he] using ih

theorem scanWord_of_not_isAlpha {α : Type} {words : List (String × α)}
    (hwords : ∀ w ∈ words, w.1.toList.head?.any Char.isAlpha) {c : Char} {s : List Char}
    (hc : c.isAlpha = false) : scanWord words (c :: s) = none := by
  refine List.findSome?_eq_none_iff.2 fun w hw => ?_
  have hfirst := hwords w hw
  cases hlist : w.1.toList with
  | nil => simp [hlist] at hfirst
  | cons d word =>
    rw [hlist] at hfirst
    simp [hlist, afterKeyword_of_not_isAlpha (by simpa using hfirst) hc]

/-- One of some words given in lower case, whatever the case of its ASCII letters. -/
def IsWord (words : List String) (t : List Char) : Prop :=
  String.ofList (t.map Char.toLower) ∈ words

instance (words : List String) (t : List Char) : Decidable (IsWord words t) :=
  inferInstanceAs (Decidable (_ ∈ words))

theorem isWord_iff {words : List String} {t : List Char} :
    IsWord words t ↔ ∃ w ∈ words, t.map Char.toLower = w.toList := by
  constructor
  · intro h
    exact ⟨_, h, String.toList_ofList.symm⟩
  · rintro ⟨w, hw, he⟩
    rwa [IsWord, he, String.ofList_toList]

theorem all_isIdentifierChar_map_toLower (t : List Char) :
    (t.map Char.toLower).all isIdentifierChar = t.all isIdentifierChar := by
  rw [List.all_map]
  exact congrArg t.all (funext isIdentifierChar_toLower)

/-- Whatever the case of its letters, a word is a run of identifier characters. -/
theorem exists_cons_of_word {w t : List Char} (hw : w ≠ [] ∧ w.all isIdentifierChar = true)
    (ht : t.map Char.toLower = w) :
    t.all isIdentifierChar = true ∧ ∃ c s, t = c :: s ∧ isIdentifierChar c = true := by
  subst ht
  rw [all_isIdentifierChar_map_toLower] at hw
  obtain ⟨c, s, rfl⟩ := List.exists_cons_of_ne_nil (mt List.map_eq_nil_iff.2 hw.1)
  rw [List.all_cons, Bool.and_eq_true] at hw
  exact ⟨by simpa using hw.2, c, s, rfl, hw.2.1⟩

/-- What has no letters is written in one way only. -/
theorem eq_of_map_toLower {t u : List Char} (h : t.map Char.toLower = u)
    (hu : u.all fun c => !c.isLower) : t = u := by
  subst h
  have hid : t.map Char.toLower = t.map id := by
    refine List.map_congr_left fun c hc => ?_
    have hlower := List.all_eq_true.1 hu _ (List.mem_map_of_mem hc)
    cases hupper : c.isUpper with
    | false => exact toLower_of_not_isUpper hupper
    | true => simp [isLower_toLower hupper] at hlower
  rw [hid, List.map_id]

/-! ### Connectives -/

/-- The ways to write a connective, its letters in lower case. -/
def Connective.spellings : Connective → List String
  | and => ["and", "&&"]
  | or => ["or", "||"]

/-- The ways to write a negation, its letters in lower case. -/
def negationSpellings : List String := ["not", "!"]

theorem afterAnd_of_afterOr {s r : List Char} (h : afterOr s = some r) : afterAnd s = none := by
  fun_cases afterAnd s with
  | case1 => exact absurd h (by rintro ⟨⟩)
  | case2 =>
    fun_cases afterOr s with
    | case1 => rfl
    | case2 =>
      rename_i hor
      rw [afterOr.eq_2 s hor] at h
      by_contra hand
      obtain ⟨t, hand⟩ := Option.ne_none_iff_exists'.1 hand
      exact absurd (eq_of_afterKeyword (by decide) (by decide) h hand) (by decide)

/-! ### Operators -/

/-- The ways to write an operator, its letters in lower case. -/
def Operator.spellings : Operator → List String
  | equal => ["==", "="]
  | notEqual => ["!=", "<>"]
  | less => ["<"]
  | lessOrEqual => ["<=", "=<"]
  | greater => [">"]
  | greaterOrEqual => [">=", "=>"]
  | beginsWith => ["beginswith"]
  | contains => ["contains"]
  | endsWith => ["endswith"]

/-- The modifier that says whether case is folded. -/
def caseModifier (foldCase : Bool) : List Char := if foldCase then ['[', 'c', ']'] else []

theorem scanSymbol_append {op : Operator} {w : String} (hw : w ∈ op.spellings)
    (hsymbol : w.toList.all fun c => !c.isLower) {tail : List Char}
    (stop : ∀ c ∈ tail.head?, c ∉ ['=', '<', '>']) :
    scanSymbol (w.toList ++ tail) = some (op, tail) := by
  cases op with
  | beginsWith | contains | endsWith =>
    obtain rfl := List.mem_singleton.1 hw
    exact absurd hsymbol (by decide)
  | less | greater =>
    obtain rfl := List.mem_singleton.1 hw
    cases tail <;> simp_all [scanSymbol]
  | _ =>
    rcases List.mem_pair.1 hw with rfl | rfl <;> cases tail <;> simp_all [scanSymbol]

theorem scanSymbol_of_isIdentifierChar {c : Char} (h : isIdentifierChar c = true) (s : List Char) :
    scanSymbol (c :: s) = none := by
  have hne : ∀ d ∈ ['!', '<', '>', '='], c ≠ d := ne_of_test isIdentifierChar h (by decide)
  unfold scanSymbol
  split <;> simp_all

theorem all_isIdentifierChar_operatorWords :
    ∀ w ∈ operatorWords, w.1.toList.all isIdentifierChar := by decide

/-- An operator is a symbol, or a word that is found among the words. -/
theorem spellings_cases : ∀ op ∈ Operator.all, ∀ w ∈ op.spellings,
    (w.toList.all fun c => !c.isLower) ∨ (w.toList ≠ [] ∧ w.toList.all isIdentifierChar = true) ∧
      (operatorWords.find? fun v => w.toList = v.1.toList).map Prod.snd = some op := by decide

/-- What follows an operator goes on with neither a symbol nor a word. -/
theorem head_caseModifier (foldCase : Bool) {rest : List Char} (stop : Stops rest) :
    ∀ c ∈ (caseModifier foldCase ++ rest).head?,
      isIdentifierChar c = false ∧ c ∉ ['=', '<', '>'] := by
  cases foldCase with
  | true =>
    intro c hc
    obtain rfl : '[' = c := by simpa [caseModifier] using hc
    decide
  | false =>
    intro c hc
    have hfails := stop.head_false (fun c => isIdentifierChar c || c ∈ ['=', '<', '>']) (by decide)
      c (by simpa [caseModifier] using hc)
    simpa using hfails

theorem scanModifier_caseModifier (foldCase : Bool) {rest : List Char} (stop : Stops rest) :
    scanModifier (caseModifier foldCase ++ rest) =
      (if foldCase then some ['c'] else none, rest) := by
  cases foldCase with
  | true => rfl
  | false =>
    cases rest with
    | nil => rfl
    | cons c s =>
      have hne : c ≠ '[' := by simpa using stop.head_false (· == '[') (by decide) c (by simp)
      simp [caseModifier, scanModifier, hne]

/-- An operator is found however it is written, with its modifier. -/
theorem scanOperator_append {op : Operator} {t : List Char} (ht : IsWord op.spellings t)
    (foldCase : Bool) {rest : List Char} (stop : Stops rest) :
    scanOperator (t ++ (caseModifier foldCase ++ rest)) = some ((op, .ok foldCase), rest) := by
  obtain ⟨w, hw, he⟩ := isWord_iff.1 ht
  have hhead := head_caseModifier foldCase stop
  have hfound : (scanSymbol (t ++ (caseModifier foldCase ++ rest)) <|>
      scanWord operatorWords (t ++ (caseModifier foldCase ++ rest))) =
        some (op, caseModifier foldCase ++ rest) := by
    rcases spellings_cases op (by cases op <;> decide) w hw with hsymbol | ⟨hword, hfind⟩
    · rw [eq_of_map_toLower he hsymbol, scanSymbol_append hw hsymbol fun c hc => (hhead c hc).2]
      rfl
    · obtain ⟨hrun, c, s, rfl, hc⟩ := exists_cons_of_word hword he
      rw [scanWord_append all_isIdentifierChar_operatorWords hrun fun c hc => (hhead c hc).1,
        List.cons_append, scanSymbol_of_isIdentifierChar hc]
      obtain ⟨v, hv, hop⟩ := Option.map_eq_some_iff.1 hfind
      simp [he, hv, hop]
  simp only [scanOperator, hfound, scanModifier_caseModifier foldCase stop, Option.bind_eq_bind,
    Option.bind_some]
  cases foldCase <;> rfl

/-! ### Paths -/

theorem scanSteps_append {run : List Char} (h : run.all isIdentifierChar = true) (s : List Char) :
    scanSteps (run ++ s) = (run ++ (scanSteps s).1, (scanSteps s).2) := by
  induction run with
  | nil => rfl
  | cons c run ih =>
    simp only [List.all_cons, Bool.and_eq_true] at h
    simp [scanSteps, h.1, ih h.2]

theorem scanSteps_of_stops {rest : List Char} (stop : Stops rest) :
    scanSteps rest = ([], rest) := by
  cases rest with
  | nil => rfl
  | cons c s =>
    have hc := stop.head_false (fun c => isIdentifierChar c || c == '.') (by decide) c
      (by simp)
    simp only [Bool.or_eq_false_iff] at hc
    simp [scanSteps, hc.1, hc.2]

/-- A dot belongs to a path when a step follows it. -/
theorem scanSteps_dot {c : Char} (h : isIdentifierStart c = true) (s : List Char) :
    scanSteps ('.' :: c :: s) = ('.' :: (scanSteps (c :: s)).1, (scanSteps (c :: s)).2) := by
  rw [scanSteps]
  simp [h]

theorem scanSteps_intercalate {steps : List (List Char)} (hne : steps ≠ [])
    (h : ∀ step ∈ steps, isIdentifier step = true) {rest : List Char} (stop : Stops rest) :
    scanSteps (['.'].intercalate steps ++ rest) = (['.'].intercalate steps, rest) := by
  induction steps with
  | nil => exact absurd rfl hne
  | cons step steps ih =>
    have hstep := all_isIdentifierChar (h step (by simp))
    cases steps with
    | nil =>
      rw [List.intercalate_singleton, scanSteps_append hstep, scanSteps_of_stops stop,
        List.append_nil]
    | cons next steps =>
      have ih := ih (by simp) fun t ht => h t (List.mem_cons_of_mem step ht)
      obtain ⟨c, s, hnext, hc⟩ := exists_cons_of_isIdentifier (h next (by simp))
      obtain ⟨tail, htail⟩ : ∃ tail, ['.'].intercalate (next :: steps) = c :: tail := by
        cases steps with
        | nil => exact ⟨s, by rw [List.intercalate_singleton, hnext]⟩
        | cons t ts => exact ⟨_, by rw [List.intercalate_cons_cons, hnext]; rfl⟩
      rw [htail] at ih
      rw [List.intercalate_cons_cons, htail, List.append_assoc, List.append_assoc,
        scanSteps_append hstep, List.cons_append, List.nil_append, List.cons_append,
        scanSteps_dot hc, ← List.cons_append, ih]
      simp

namespace KeyPath

variable {path : KeyPath}

theorem scanPath_chars (h : path.isValid = true) {rest : List Char} (stop : Stops rest) :
    scanPath (path.chars ++ rest) = some (path.chars, rest) := by
  obtain ⟨step, tail, hchars, hstep, -⟩ := exists_chars_eq h
  obtain ⟨c, s, rfl, hc⟩ := exists_cons_of_isIdentifier hstep
  have hscan := scanSteps_intercalate (steps_ne_nil_of_isValid h) (isIdentifier_of_isValid h) stop
  rw [← chars] at hscan
  have hfirst : (path.chars ++ rest).head?.any isIdentifierStart = true := by simp [hchars, hc]
  rw [scanPath, if_pos hfirst, hscan]

end KeyPath

end RecordQuery
