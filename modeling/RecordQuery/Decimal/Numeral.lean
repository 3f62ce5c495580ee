import RecordQuery.Decimal.Basic
import RecordQuery.Text.Scan

/-! Numerals: the written parts of a number, kept as they are written. A scanner takes as many
characters as its part allows and leaves the text alone when the part is not there. -/

namespace RecordQuery

/-- The 64-bit integer that equals an integer, if there is one. -/
def int64? (n : Int) : Option Int64 :=
  if Int64.minValue.toInt ≤ n ∧ n ≤ Int64.maxValue.toInt then some (.ofInt n) else none

theorem toInt_of_int64? {n : Int} {m : Int64} (h : int64? n = some m) : m.toInt = n := by
  simp only [int64?, Option.ite_none_right_eq_some, Option.some.injEq] at h
  obtain ⟨⟨low, high⟩, rfl⟩ := h
  exact Int64.toInt_ofInt_of_le low (Int.lt_add_one_of_le high)

@[simp] theorem int64?_toInt (n : Int64) : int64? n.toInt = some n := by
  rw [int64?, if_pos ⟨Int64.le_toInt n, Int64.toInt_le n⟩, Int64.ofInt_toInt]

/-- A sign, the digits before and after the point, and a power of ten; without a fraction and an
exponent the numeral is an integer. -/
structure Numeral where
  negative : Bool
  whole : List Char
  fraction : List Char
  exponent : Option Int
  deriving DecidableEq

namespace Numeral

def decimal (n : Numeral) : Decimal where
  coefficient := Nat.ofDigitChars 10 (n.whole ++ n.fraction) 0
  exponent := n.exponent.getD 0 - n.fraction.length

def isInteger (n : Numeral) : Bool := n.fraction.isEmpty && n.exponent.isNone

/-- The integer an integer numeral names. -/
def toInt (n : Numeral) : Int :=
  if n.negative then -(n.decimal.coefficient : Int) else n.decimal.coefficient

/-- The double nearest to the number; a negative zero keeps its sign. -/
def toBinary64 (n : Numeral) : Binary64 := n.decimal.toBinary64 n.negative

def ofInt (n : Int) : Numeral where
  negative := n < 0
  whole := Nat.toDigits 10 n.natAbs
  fraction := []
  exponent := none

/-- The power of ten behind its letter, always signed. -/
def exponentChars (exponent : Int) : List Char :=
  'e' :: (if exponent < 0 then '-' else '+') :: Nat.toDigits 10 exponent.natAbs

def chars (n : Numeral) : List Char :=
  (if n.negative then ['-'] else []) ++ n.whole
    ++ (if n.fraction.isEmpty then [] else '.' :: n.fraction)
    ++ (n.exponent.map exponentChars).getD []

@[simp] theorem toInt_ofInt (n : Int) : (ofInt n).toInt = n := by
  simp only [ofInt, toInt, decimal, List.append_nil, Nat.ofDigitChars_toDigits (by decide : 1 < 10)
    (Nat.le_refl 10), decide_eq_true_eq]
  split <;> omega

@[simp] theorem isInteger_ofInt (n : Int) : (ofInt n).isInteger = true := rfl

/-! ### Scanning -/

def scanDigits (s : List Char) : List Char × List Char :=
  (s.takeWhile Char.isDigit, s.dropWhile Char.isDigit)

def scanMinus : List Char → Bool × List Char
  | '-' :: s => (true, s)
  | s => (false, s)

/-- A sign of either kind. -/
def scanSign : List Char → Bool × List Char
  | '+' :: s => (false, s)
  | s => scanMinus s

/-- A point with at least one digit after it. -/
def scanFraction (s : List Char) : List Char × List Char :=
  match s with
  | '.' :: r =>
    match scanDigits r with
    | ([], _) => ([], s)
    | found => found
  | _ => ([], s)

/-- The letter `e`, a sign or none, and at least one digit. -/
def scanExponent (s : List Char) : Option Int × List Char :=
  match s with
  | [] => (none, s)
  | e :: r =>
    if e.toLower = 'e' then
      let (negative, r) := scanSign r
      match scanDigits r with
      | ([], _) => (none, s)
      | (digits, r) =>
        let size : Int := Nat.ofDigitChars 10 digits 0
        (some (if negative then -size else size), r)
    else (none, s)

theorem scanDigits_append {digits rest : List Char} (h : digits.all Char.isDigit)
    (stop : ∀ c ∈ rest.head?, c.isDigit = false) :
    scanDigits (digits ++ rest) = (digits, rest) := by
  have h' := List.all_eq_true.1 h
  have : rest.takeWhile Char.isDigit = [] ∧ rest.dropWhile Char.isDigit = rest := by
    cases rest with
    | nil => simp
    | cons c rest => simp [stop c (by simp)]
  rw [scanDigits, List.takeWhile_append_of_pos h', List.dropWhile_append_of_pos h', this.1, this.2,
    List.append_nil]

end Numeral

namespace Binary64

/-- The double that a text names: `nan`, `inf` or `infinity` in any case, or a decimal number with
an optional sign, point and exponent and at least one digit. -/
def ofText? (s : String) : Option Binary64 :=
  let (negative, s) := Numeral.scanSign s.toList
  let word := s.map Char.toLower
  if word = "nan".toList then some { nan with negative }
  else if word = "inf".toList || word = "infinity".toList then some (infinity negative)
  else
    let (whole, s) := Numeral.scanDigits s
    let (fraction, s) := match s with
      | '.' :: s => Numeral.scanDigits s
      | s => ([], s)
    let (exponent, s) := Numeral.scanExponent s
    if s.isEmpty && !(whole ++ fraction).isEmpty then
      some (Numeral.toBinary64 { negative, whole, fraction, exponent })
    else none

end Binary64

end RecordQuery
