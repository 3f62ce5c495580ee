import RecordQuery.Decimal.Numeral

/-! Reading a numeral by scaling. Its digits are collected into an integer for as long as that stays
below `2 ^ 64`; the integer becomes a double, and a power of ten, a double as well, multiplies or
divides it. Every step rounds, so the last bit may differ from that of the double nearest to the
numeral, and what would be infinite is refused. -/

namespace RecordQuery

namespace Binary64

/-- The product of finite doubles. -/
def mul (x y : Binary64) : Binary64 :=
  nearest (x.negative != y.negative) (units x.magnitude * units y.magnitude) (Nat.pow 2 2148)

/-- The quotient of finite doubles, of which the second is not zero. -/
def div (x y : Binary64) : Binary64 :=
  nearest (x.negative != y.negative) (units x.magnitude) (units y.magnitude)

/-- The largest exponent of a power of ten that is a finite double. -/
def lastPower : Nat := 308

def powerOfTen (exponent : Nat) : Binary64 := nearest false (Nat.pow 10 exponent) 1

/-- Divide by a power of ten, by one that is a finite double at a time. -/
def scaleDown (x : Binary64) (exponent : Nat) : Binary64 :=
  if exponent ≤ lastPower then x.div (powerOfTen exponent)
  else if x.magnitude = 0 then x
  else (x.div (powerOfTen lastPower)).scaleDown (exponent - lastPower)
termination_by exponent
decreasing_by simp only [lastPower] at *; omega

/-- Multiply by a power of ten, as far as the result is finite. -/
def scaleUp? (x : Binary64) (exponent : Nat) : Option Binary64 :=
  if exponent ≤ lastPower then some (x.mul (powerOfTen exponent)) |>.filter isFinite
  else if x.magnitude = 0 then some x
  else none

end Binary64

namespace Numeral

/-- Append digits to a number for as long as it stays below `2 ^ 64`; also how many they were. -/
def collectDigits (collected : Nat) : List Char → Nat × Nat
  | [] => (collected, 0)
  | c :: s =>
    let next := Nat.ofDigitChars 10 [c] collected
    if next < UInt64.size then
      let (collected, count) := collectDigits next s
      (collected, count + 1)
    else (collected, 0)

def scaled? (n : Numeral) : Option Binary64 :=
  let (collected, whole) := collectDigits 0 n.whole
  let (collected, fraction) := collectDigits collected n.fraction
  let significand := Binary64.nearest n.negative collected 1
  let exponent : Int := n.exponent.getD 0 + n.whole.length - whole - fraction
  if exponent < 0 then some (significand.scaleDown exponent.natAbs)
  else significand.scaleUp? exponent.natAbs

end Numeral

end RecordQuery
