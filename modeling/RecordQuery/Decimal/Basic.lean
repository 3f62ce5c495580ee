import RecordQuery.Binary64.Rounding

/-! Decimal numbers `coefficient * 10 ^ exponent` and the double nearest to one. -/

namespace RecordQuery

structure Decimal where
  coefficient : Nat
  exponent : Int
  deriving DecidableEq

namespace Decimal

/-- The exponent drawn into a range outside which every coefficient is rounded to zero or to an
infinity, so that a power of ten never grows past the size of the numeral that names it. -/
def reach (d : Decimal) : Int :=
  max (-(400 + d.coefficient.log2 : Nat)) (min 400 d.exponent)

/-- The double nearest to a decimal, with the given sign. -/
def toBinary64 (negative : Bool) (d : Decimal) : Binary64 :=
  if 0 ≤ d.reach then .nearest negative (d.coefficient * Nat.pow 10 d.reach.toNat) 1
  else .nearest negative d.coefficient (Nat.pow 10 (-d.reach).toNat)

theorem isNaN_toBinary64 (s : Bool) (d : Decimal) : (d.toBinary64 s).isNaN = false := by
  unfold toBinary64
  split <;> exact Binary64.isNaN_nearest ..

end Decimal

end RecordQuery
