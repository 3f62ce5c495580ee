import RecordQuery.Predicate.Basic
import RecordQuery.Text.Scan

/-! The smallest parts of a predicate format, each scanned from the front of a text. Words are
recognised in any case of their ASCII letters and only where no identifier goes on after them, so
a path may begin like a word. Errors that a part carries are kept with what was found: they count
only once the whole text has turned out to be well formed. -/

namespace RecordQuery

open Text (skipBlank length_skipBlank_le)

/-- The text after a word given in lower case, letter by letter. -/
def afterWord : List Char → List Char → Option (List Char)
  | [], s => some s
  | _ :: _, [] => none
  | w :: word, c :: s => if c.toLower = w then afterWord word s else none

/-- The text after a whole word. -/
def afterKeyword (word : List Char) (s : List Char) : Option (List Char) :=
  (afterWord word s).filter fun rest => !rest.head?.any isIdentifierChar

theorem length_afterWord {word s rest : List Char} (h : afterWord word s = some rest) :
    rest.length + word.length = s.length := by
  fun_induction afterWord word s with grind

theorem length_afterKeyword {word s rest : List Char} (h : afterKeyword word s = some rest) :
    rest.length + word.length = s.length :=
  length_afterWord (Option.filter_eq_some_iff.1 h).1

/-! ### Connectives -/

def afterAnd (s : List Char) : Option (List Char) :=
  match s with
  | '&' :: '&' :: rest => some rest
  | _ => afterKeyword "and".toList s

def afterOr (s : List Char) : Option (List Char) :=
  match s with
  | '|' :: '|' :: rest => some rest
  | _ => afterKeyword "or".toList s

/-- An exclamation mark negates unless an equals sign makes it an operator. -/
def afterNot (s : List Char) : Option (List Char) :=
  match s with
  | '!' :: '=' :: _ => none
  | '!' :: rest => some rest
  | _ => afterKeyword "not".toList s

theorem length_afterNot {s rest : List Char} (h : afterNot s = some rest) :
    rest.length < s.length := by
  unfold afterNot at h
  split at h
  · simp at h
  · simp_all
  · have := length_afterKeyword h
    simp at this
    omega

/-! ### Operators -/

def scanSymbol : Scan Operator
  | '!' :: '=' :: s | '<' :: '>' :: s => some (.notEqual, s)
  | '<' :: '=' :: s | '=' :: '<' :: s => some (.lessOrEqual, s)
  | '>' :: '=' :: s | '=' :: '>' :: s => some (.greaterOrEqual, s)
  | '=' :: '=' :: s | '=' :: s => some (.equal, s)
  | '<' :: s => some (.less, s)
  | '>' :: s => some (.greater, s)
  | _ => none

def operatorWords : List (String × Operator) :=
  [("beginswith", .beginsWith), ("contains", .contains), ("endswith", .endsWith)]

/-- The value of the first word that stands at the front. -/
def scanWord {α : Type} (words : List (String × α)) : Scan α := fun s =>
  words.findSome? fun (word, value) => (afterKeyword word.toList s).map (value, ·)

/-- Letters in square brackets, directly after an operator. -/
def scanModifier (s : List Char) : Option (List Char) × List Char :=
  match s with
  | '[' :: r =>
    match r.takeWhile Char.isAlpha, r.dropWhile Char.isAlpha with
    | flag :: flags, ']' :: rest => (some (flag :: flags), rest)
    | _, _ => (none, s)
  | _ => (none, s)

/-- The only modifier is `c`, which folds case. -/
def foldsCase : Option (List Char) → Except FormatError Bool
  | none => .ok false
  | some flags =>
    if flags = ['c'] then .ok true else .error (.unsupportedModifier (String.ofList flags))

def scanOperator : Scan (Operator × Except FormatError Bool) := fun s => do
  let (op, s) ← scanSymbol s <|> scanWord operatorWords s
  let (flags, s) := scanModifier s
  return ((op, foldsCase flags), s)

/-! ### Operands -/

def literalWords : List (String × Value) :=
  [("nil", .nil), ("null", .nil), ("true", .bool true), ("yes", .bool true),
    ("false", .bool false), ("no", .bool false)]

/-- Digits with an optional minus sign; an exponent is part of a number only after a fraction. -/
def scanNumeral : Scan Numeral := fun s =>
  let (negative, s) := Numeral.scanMinus s
  match Numeral.scanDigits s with
  | ([], _) => none
  | (whole, s) =>
    match Numeral.scanFraction s with
    | ([], s) => some ({ negative, whole, fraction := [], exponent := none }, s)
    | (fraction, s) =>
      let (exponent, s) := Numeral.scanExponent s
      some ({ negative, whole, fraction, exponent }, s)

/-- Identifier characters, and dots that an identifier follows. -/
def scanSteps : List Char → List Char × List Char
  | [] => ([], [])
  | c :: s =>
    if isIdentifierChar c || (c == '.' && s.head?.any isIdentifierStart) then
      let (found, rest) := scanSteps s
      (c :: found, rest)
    else ([], c :: s)

def scanPath : Scan (List Char) := fun s =>
  if s.head?.any isIdentifierStart then some (scanSteps s) else none

def scanOperand : Scan (Except FormatError Operand) := fun s =>
  match s with
  | '%' :: '@' :: s => some (.ok (.placeholder .value), s)
  | '%' :: 'K' :: s => some (.ok (.placeholder .key), s)
  | '"' :: s => (Text.scanQuoted '"' s).map (Prod.map ofString id)
  | '\'' :: s => (Text.scanQuoted '\'' s).map (Prod.map ofString id)
  | s =>
    (scanWord literalWords s).map (Prod.map (.ok ∘ .literal) id)
      <|> (scanNumeral s).map (Prod.map (.ok ∘ .literal ∘ Value.ofNumeral) id)
      <|> (scanPath s).map (Prod.map ofPath id)
where
  ofString (s : List Char) : Except FormatError Operand :=
    .ok (.literal (.string (String.ofList s)))
  ofPath (s : List Char) : Except FormatError Operand := .path <$> KeyPath.parse (String.ofList s)

end RecordQuery
