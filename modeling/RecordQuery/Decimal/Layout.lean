import RecordQuery.Decimal.Numeral
import RecordQuery.Decimal.Shortest

/-! How the shortest digits of a double are laid out as a numeral. A layout decides the exact ties,
whether a whole number carries a zero after the point, and between which powers of ten the numeral
is positional. Two layouts are in use: the plain one of canonical text and the one of persisted
text. -/

namespace RecordQuery

namespace Decimal

def digits (d : Decimal) : List Char := Nat.toDigits 10 d.coefficient

/-- The power of ten of the leading digit. -/
def leading (d : Decimal) : Int := d.digits.length - 1 + d.exponent

/-- All digits up to the units, and those after the point. -/
def positional (d : Decimal) : List Char × List Char :=
  if 0 ≤ d.exponent then (d.digits ++ List.replicate d.exponent.toNat '0', [])
  else
    let places := (-d.exponent).toNat
    let padded := List.replicate (places + 1 - d.digits.length) '0' ++ d.digits
    padded.splitAt (padded.length - places)

end Decimal

structure FloatLayout where
  tie : Tie
  /-- Whether a whole number is written with a zero after the point. -/
  pointed : Bool
  /-- The powers of ten of the leading digit that are written positionally, from the first up to
  but not including the second. -/
  window : Option (Int × Int)

namespace FloatLayout

/-- Canonical text: always positional, no point in a whole number, ties to the larger neighbour. -/
def plain : FloatLayout where
  tie := .up
  pointed := false
  window := none

/-- Persisted text: positional from `0.00001` to below `10 ^ 16`, ties to the even neighbour. -/
def persisted : FloatLayout where
  tie := .even
  pointed := true
  window := some (-5, 16)

def isPositional (layout : FloatLayout) (d : Decimal) : Bool :=
  match layout.window with
  | none => true
  | some (first, last) => first ≤ d.leading && d.leading < last

/-- The numeral of a finite double. -/
def numeral (layout : FloatLayout) (x : Binary64) : Numeral :=
  let d := Binary64.shortest layout.tie x.magnitude
  if layout.isPositional d then
    let (whole, fraction) := d.positional
    let fraction := if layout.pointed && fraction.isEmpty then ['0'] else fraction
    { negative := x.negative, whole, fraction, exponent := none }
  else
    { negative := x.negative, whole := d.digits.take 1, fraction := d.digits.drop 1,
      exponent := some d.leading }

end FloatLayout

namespace Binary64

/-- Canonical text, with words for the numbers that are not finite. -/
def chars (x : Binary64) : List Char :=
  if x.isNaN then "NaN".toList
  else if x.isFinite then (FloatLayout.plain.numeral x).chars
  else if x.negative then "-inf".toList
  else "inf".toList

def text (x : Binary64) : String := String.ofList x.chars

end Binary64

end RecordQuery
