import RecordQuery.Predicate.Token

/-! Reading predicate formats. NOT binds tighter than AND and AND tighter than OR; a chain of one
connective is one compound, and a group in parentheses stays a node of its own. Alternatives are
tried in order and the first that fits is kept. The text has to be read to its end; only then does
the first error that one of its parts carries count, from left to right. -/

namespace RecordQuery

open Text (skipBlank length_skipBlank_le scanChain)

namespace Predicate

/-- A predicate that was read, or the first error in it. -/
abbrev Read := Except FormatError Predicate

/-- One operand, or several joined by a connective into one compound. -/
def scanJoined (kind : Connective) (sign : List Char → Option (List Char)) (item : Scan Read) :
    Scan Read := fun s =>
  (scanChain sign item s).map (Prod.map (fun operands => chain kind <$> operands.mapM id) id)

def scanComparison : Scan Read := fun s => do
  let (left, s) ← scanOperand s
  let ((op, foldCase), s) ← scanOperator (skipBlank s)
  let (right, s) ← scanOperand (skipBlank s)
  let found := do
    let left ← left
    let foldCase ← foldCase
    let right ← right
    return comparison left op right foldCase
  return (found, s)

def constantWords : List (String × Bool) := [("truepredicate", true), ("falsepredicate", false)]

def scanGroup (inner : Scan Read) : Scan Read
  | '(' :: s => do
    let (found, s) ← inner (skipBlank s)
    match skipBlank s with
    | ')' :: s => return (found, s)
    | _ => none
  | _ => none

def scanPrimary (inner : Scan Read) : Scan Read := fun s =>
  scanGroup inner s
    <|> (scanWord constantWords s).map (Prod.map (.ok ∘ .constant) id)
    <|> scanComparison s

/-- A negation, or what stands there if nothing that can be negated follows the sign. -/
def scanNegation (inner : Scan Read) (s : List Char) : Option (Read × List Char) :=
  match _h : afterNot s with
  | none => scanPrimary inner s
  | some r =>
    match scanNegation inner (skipBlank r) with
    | some (found, rest) => some (.not <$> found, rest)
    | none => scanPrimary inner s
termination_by s.length
decreasing_by exact Nat.lt_of_le_of_lt (length_skipBlank_le _) (length_afterNot ‹_›)

def scanConjunction (inner : Scan Read) : Scan Read :=
  scanJoined .and afterAnd (scanNegation inner)

/-- A whole predicate at the front of a text; a group holds a shorter one. -/
def scan (s : List Char) : Option (Read × List Char) :=
  let inner (r : List Char) := if r.length < s.length then scan r else none
  scanJoined .or afterOr (scanConjunction inner) s
termination_by s.length

/-- Read a predicate format, placeholders and all. -/
def parse (format : String) : Read :=
  match scan (skipBlank format.toList) with
  | none => .error .malformed
  | some (found, rest) => if skipBlank rest = [] then found else .error .malformed

end Predicate

end RecordQuery
