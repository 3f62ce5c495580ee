import RecordQuery.Text.Scan

/-! How strings are spelled in JSON text. A spelling is what stands between the quotes, escapes and
all. Written, only the quote, the backslash and the characters below U+0020 are escaped. Read,
every escape is allowed, and a spelling names a text only if its surrogates come in pairs. -/

namespace RecordQuery.Json

/-- The escapes of one letter, and the characters they stand for. -/
def shortEscapes : List (Char × Char) :=
  [('"', '"'), ('\\', '\\'), ('/', '/'), ('b', '\x08'), ('f', '\x0c'), ('n', '\n'), ('r', '\r'),
    ('t', '\t')]

def spellChar : Char → List Char
  | '"' => ['\\', '"']
  | '\\' => ['\\', '\\']
  | '\x08' => ['\\', 'b']
  | '\x0c' => ['\\', 'f']
  | '\n' => ['\\', 'n']
  | '\r' => ['\\', 'r']
  | '\t' => ['\\', 't']
  | c =>
    if c < ' ' then
      ['\\', 'u', '0', '0', Nat.digitChar (c.toNat / 16), Nat.digitChar (c.toNat % 16)]
    else [c]

def spell (s : String) : List Char := s.toList.flatMap spellChar

def hexDigit? (c : Char) : Option Nat :=
  if '0' ≤ c ∧ c ≤ '9' then some (c.toNat - '0'.toNat)
  else if 'a' ≤ c.toLower ∧ c.toLower ≤ 'f' then some (c.toLower.toNat - 'a'.toNat + 10)
  else none

/-! ### Finding the end of a spelling -/

/-- What has to come next inside a spelling: anything, the letter of an escape, or digits of a
numbered one. -/
inductive Expected where
  | any
  | escape
  | hex (left : Nat)

/-- A spelling and the text after its closing quote. -/
def scanSpelling : Expected → Scan (List Char)
  | _, [] => none
  | .any, c :: s =>
    if c = '"' then some ([], s)
    else if c < ' ' then none
    else (scanSpelling (if c = '\\' then .escape else .any) s).map (Prod.map (c :: ·) id)
  | .escape, c :: s =>
    if c = 'u' then (scanSpelling (.hex 4) s).map (Prod.map (c :: ·) id)
    else if (shortEscapes.lookup c).isSome then
      (scanSpelling .any s).map (Prod.map (c :: ·) id)
    else none
  | .hex left, c :: s =>
    if (hexDigit? c).isSome then
      (scanSpelling (if left ≤ 1 then .any else .hex (left - 1)) s).map (Prod.map (c :: ·) id)
    else none

/-! ### What a spelling names -/

/-- Four hexadecimal digits. -/
def scanUnit : Scan Nat
  | a :: b :: c :: d :: s => do
    let digits ← [a, b, c, d].mapM hexDigit?
    return (digits.foldl (16 * · + ·) 0, s)
  | _ => none

def isLead (unit : Nat) : Bool := 0xd800 ≤ unit && unit < 0xdc00

def isTrail (unit : Nat) : Bool := 0xdc00 ≤ unit && unit < 0xe000

/-- The first character that a spelling names. -/
def scanSpelled : Scan Char
  | [] => none
  | '\\' :: 'u' :: s => do
    let (unit, s) ← scanUnit s
    if isTrail unit then none
    else if isLead unit then
      match s with
      | '\\' :: 'u' :: s =>
        let (trail, s) ← scanUnit s
        if isTrail trail then
          return (Char.ofNat (0x10000 + (unit - 0xd800) * 0x400 + (trail - 0xdc00)), s)
        else none
      | _ => none
    else return (Char.ofNat unit, s)
  | '\\' :: s =>
    match s with
    | [] => none
    | e :: s => (shortEscapes.lookup e).map (·, s)
  | c :: s => some (c, s)

/-- The characters that a spelling names, unless a surrogate in it stands alone. -/
def spelled (s : List Char) : Option (List Char) :=
  match s with
  | [] => some []
  | c :: r =>
    match scanSpelled (c :: r) with
    | none => none
    | some (found, rest) =>
      if rest.length < (c :: r).length then (found :: ·) <$> spelled rest else none
termination_by s.length
decreasing_by assumption

def unspell? (s : List Char) : Option String := String.ofList <$> spelled s

end RecordQuery.Json
