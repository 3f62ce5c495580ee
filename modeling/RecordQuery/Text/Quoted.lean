/-! String literals of the predicate language. Written, a literal stands in double quotes, with the
quote, the backslash, line feed, tab and carriage return escaped. Read, it stands in quotes of
either kind, and a backslash makes any character after it part of the literal. -/

namespace RecordQuery.Text

def escape : Char → List Char
  | '"' => ['\\', '"']
  | '\\' => ['\\', '\\']
  | '\n' => ['\\', 'n']
  | '\t' => ['\\', 't']
  | '\r' => ['\\', 'r']
  | c => [c]

/-- The character that stands after a backslash for one in the literal. -/
def unescape : Char → Char
  | 'n' => '\n'
  | 't' => '\t'
  | 'r' => '\r'
  | c => c

def quote (s : List Char) : List Char := '"' :: (s.flatMap escape ++ ['"'])

/-- The literal up to the closing quote, and what follows the quote; `escaped` says that a
backslash has just been passed. -/
def scanLiteral (closing : Char) (escaped : Bool) : List Char → Option (List Char × List Char)
  | [] => none
  | c :: s =>
    if escaped then (scanLiteral closing false s).map (Prod.map (unescape c :: ·) id)
    else if c = closing then some ([], s)
    else if c = '\\' then scanLiteral closing true s
    else (scanLiteral closing false s).map (Prod.map (c :: ·) id)

/-- A literal without its opening quote. -/
def scanQuoted (closing : Char) (s : List Char) : Option (List Char × List Char) :=
  scanLiteral closing false s

theorem scanLiteral_escape (c : Char) (s : List Char) :
    scanLiteral '"' false (escape c ++ s) =
      (scanLiteral '"' false s).map (Prod.map (c :: ·) id) := by
  unfold escape
  split <;> simp_all [scanLiteral, unescape]

/-- A quoted literal is read back, whatever follows it. -/
theorem scanQuoted_quote (s rest : List Char) :
    scanQuoted '"' (s.flatMap escape ++ '"' :: rest) = some (s, rest) := by
  unfold scanQuoted
  induction s with
  | nil => simp [scanLiteral]
  | cons c s ih =>
    rw [List.flatMap_cons, List.append_assoc, scanLiteral_escape, ih]
    rfl

end RecordQuery.Text
