import RecordQuery.Json.Basic

/-! Reading JSON text. A number has no leading zeros, a string no raw control characters, and
nothing but blanks may follow the value. -/

namespace RecordQuery.Json

open Text (skipBlank scanChain)

def scanNumber : Scan Json := fun s =>
  let (negative, s) := Numeral.scanMinus s
  match Numeral.scanDigits s with
  | ([], _) => none
  | ('0' :: _ :: _, _) => none
  | (whole, s) =>
    let (fraction, s) := Numeral.scanFraction s
    let (exponent, s) := Numeral.scanExponent s
    some (number { negative, whole, fraction, exponent }, s)

def scanString : Scan (List Char)
  | '"' :: s => scanSpelling .any s
  | _ => none

/-- The text after one given character. -/
def after (c : Char) : List Char → Option (List Char)
  | [] => none
  | d :: s => if d = c then some s else none

/-- Items between an opening bracket, already passed, and a closing one. -/
def scanEnclosed {α : Type} (closing : Char) (item : Scan α) : Scan (List α) := fun s =>
  match after closing (skipBlank s) with
  | some s => some ([], s)
  | none => do
    let (found, s) ← scanChain (after ',') item (skipBlank s)
    let s ← after closing (skipBlank s)
    return (found, s)

def scanField (value : Scan Json) : Scan (List Char × Json) := fun s => do
  let (name, s) ← scanString s
  let s ← after ':' (skipBlank s)
  let (j, s) ← value (skipBlank s)
  return ((name, j), s)

/-- A value at the front of a text; what it encloses is shorter. -/
def scanValue (s : List Char) : Option (Json × List Char) :=
  let inner (r : List Char) := if r.length < s.length then scanValue r else none
  match s with
  | 'n' :: 'u' :: 'l' :: 'l' :: s => some (null, s)
  | 't' :: 'r' :: 'u' :: 'e' :: s => some (bool true, s)
  | 'f' :: 'a' :: 'l' :: 's' :: 'e' :: s => some (bool false, s)
  | '[' :: s => (scanEnclosed ']' inner s).map (Prod.map array id)
  | '{' :: s => (scanEnclosed '}' (scanField inner) s).map (Prod.map object id)
  | '"' :: s => (scanSpelling .any s).map (Prod.map string id)
  | s => scanNumber s
termination_by s.length

def parse? (s : String) : Option Json := do
  let (j, rest) ← scanValue (skipBlank s.toList)
  if skipBlank rest = [] then some j else none

end RecordQuery.Json
