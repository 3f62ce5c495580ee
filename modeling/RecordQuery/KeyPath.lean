import RecordQuery.Error
import RecordQuery.Text.Trim

/-! Key paths: the steps that lead from a record to a scalar, written with dots between them. A
path is valid when it has a step and every step is an identifier that is not a word of the
predicate language, and only valid paths are read from text; others can be built and never resolve
by way of a predicate that was read. -/

namespace RecordQuery

/-- Letters, digits and the underscore, of ASCII only. -/
def isIdentifierChar (c : Char) : Bool := c.isAlphanum || c == '_'

def isIdentifierStart (c : Char) : Bool := c.isAlpha || c == '_'

/-- The words of the language that cannot be steps, in lower case. -/
def reservedWords : List String :=
  ["yes", "no", "true", "false", "nil", "null", "and", "or", "not", "truepredicate",
    "falsepredicate"]

def isReserved (word : List Char) : Bool :=
  reservedWords.any fun reserved => word.map Char.toLower = reserved.toList

def isIdentifier : List Char → Bool
  | [] => false
  | c :: s => isIdentifierStart c && s.all isIdentifierChar && !isReserved (c :: s)

structure KeyPath where
  steps : List String
  deriving DecidableEq

namespace KeyPath

/-- The parts of a text between its dots: one more than there are dots. -/
def splitDots : List Char → List (List Char)
  | [] => [[]]
  | c :: s =>
    if c = '.' then [] :: splitDots s
    else match splitDots s with
      | [] => [[c]]
      | first :: rest => (c :: first) :: rest

/-- The path a text spells, step by step, whether or not it is valid. -/
def ofText (s : String) : KeyPath := ⟨(splitDots s.toList).map String.ofList⟩

def isValid (path : KeyPath) : Bool :=
  !path.steps.isEmpty && path.steps.all fun step => isIdentifier step.toList

/-- Read a path, ignoring white space around it: something has to be left, and each part of it
between dots has to be an identifier. -/
def parse (s : String) : Except FormatError KeyPath :=
  let trimmed := Text.trim s.toList
  if trimmed.isEmpty then .error (.invalidKeyPath "")
  else
    let parts := splitDots trimmed
    if parts.all isIdentifier then .ok ⟨parts.map String.ofList⟩
    else .error (.invalidKeyPath (String.ofList trimmed))

def isSimple (path : KeyPath) : Bool := path.steps.length == 1

def first (path : KeyPath) : String := path.steps.headD ""

def chars (path : KeyPath) : List Char := ['.'].intercalate (path.steps.map String.toList)

def text (path : KeyPath) : String := String.ofList path.chars

/-- Step by step, and a path before its extensions. -/
def compare (p q : KeyPath) : Ordering := Ord.compare p.steps q.steps

theorem splitDots_ne_nil (s : List Char) : splitDots s ≠ [] := by
  fun_induction splitDots s <;> simp

theorem splitDots_eq_singleton {s : List Char} (h : '.' ∉ s) : splitDots s = [s] := by
  induction s with
  | nil => rfl
  | cons c s ih =>
    obtain ⟨hc, hs⟩ := not_or.1 (mt List.mem_cons.2 h)
    simp [splitDots, ih hs, Ne.symm hc]

/-- A dot starts a new step. -/
theorem splitDots_append_dot {s : List Char} (h : '.' ∉ s) (rest : List Char) :
    splitDots (s ++ '.' :: rest) = s :: splitDots rest := by
  induction s with
  | nil => simp [splitDots]
  | cons c s ih =>
    obtain ⟨hc, hs⟩ := not_or.1 (mt List.mem_cons.2 h)
    simp [splitDots, ih hs, Ne.symm hc]

/-- Steps without dots are found again. -/
theorem splitDots_intercalate {parts : List (List Char)} (hne : parts ≠ [])
    (h : ∀ s ∈ parts, '.' ∉ s) : splitDots (['.'].intercalate parts) = parts := by
  induction parts with
  | nil => exact absurd rfl hne
  | cons s parts ih =>
    have hs := h s (by simp)
    cases parts with
    | nil => simpa using splitDots_eq_singleton hs
    | cons t parts =>
      rw [List.intercalate_cons_cons, List.append_assoc, List.singleton_append,
        splitDots_append_dot hs, ih (by simp) fun r hr => h r (List.mem_cons_of_mem s hr)]

/-- Splitting loses nothing. -/
theorem intercalate_splitDots (s : List Char) : ['.'].intercalate (splitDots s) = s := by
  fun_induction splitDots s with
  | case1 => rfl
  | case2 s ih =>
    obtain ⟨first, rest, hs⟩ := List.exists_cons_of_ne_nil (splitDots_ne_nil s)
    rw [hs] at ih ⊢
    rw [List.intercalate_cons_cons, ih, List.nil_append, List.singleton_append]
  | case3 c s _ hs => exact absurd hs (splitDots_ne_nil s)
  | case4 c s _ first rest hs ih =>
    rw [hs] at ih
    rw [← ih]
    cases rest <;> simp [List.intercalate_cons_cons]

@[simp] theorem text_ofText (s : String) : (ofText s).text = s := by
  simp [ofText, text, chars, Function.comp_def, intercalate_splitDots]

theorem isValid_ofText (s : String) :
    (ofText s).isValid = (splitDots s.toList).all isIdentifier := by
  have hne : (splitDots s.toList).isEmpty = false := by simpa using splitDots_ne_nil s.toList
  simp [isValid, ofText, hne, Function.comp_def]

/-- Reading a path is checking the one that the text spells without the white space around it; that
of no text is one empty step, which is no identifier. -/
theorem parse_eq (s : String) : parse s =
    let trimmed := String.ofList (Text.trim s.toList)
    if (ofText trimmed).isValid then .ok (ofText trimmed)
    else .error (.invalidKeyPath trimmed) := by
  simp only [parse, isValid_ofText, String.toList_ofList]
  cases Text.trim s.toList with
  | nil => rfl
  | cons c t => simp [ofText]

theorem parse_eq_ok_iff {s : String} {path : KeyPath} : parse s = .ok path ↔
    ofText (String.ofList (Text.trim s.toList)) = path ∧ path.isValid = true := by
  rw [parse_eq]
  constructor
  · intro h
    simp only at h
    split at h
    · rename_i hvalid
      obtain rfl := Except.ok.inj h
      exact ⟨rfl, hvalid⟩
    · exact absurd h (by simp)
  · rintro ⟨rfl, hvalid⟩
    exact if_pos hvalid

theorem parse_eq_error_iff {s : String} {e : FormatError} : parse s = .error e ↔
    (ofText (String.ofList (Text.trim s.toList))).isValid = false ∧
      e = .invalidKeyPath (String.ofList (Text.trim s.toList)) := by
  rw [parse_eq]
  simp only
  split
  · rename_i hvalid
    simp [hvalid]
  · rename_i hvalid
    simp [hvalid, eq_comm]

end KeyPath

end RecordQuery
