/-! Double-precision numbers as exact data. A number is its sign and the remaining 63 bits of its
interchange encoding, read as one natural number: consecutive magnitudes are neighbouring numbers,
the infinities stand at `infinite`, and everything above that is not a number. The absolute value
is an integer multiple of `2 ^ -1074`, so comparisons are comparisons of integers. -/

namespace RecordQuery

structure Binary64 where
  negative : Bool
  magnitude : Nat
  magnitude_lt : magnitude < Nat.pow 2 63 := by decide
  deriving DecidableEq

namespace Binary64

/-- The magnitude of an infinity: all exponent bits and no fraction bit. -/
def infinite : Nat := 2047 * Nat.pow 2 52

def zero (negative : Bool) : Binary64 := { negative, magnitude := 0 }

def infinity (negative : Bool) : Binary64 := { negative, magnitude := infinite }

/-- The quiet number that is not a number, without sign. -/
def nan : Binary64 := { negative := false, magnitude := infinite + Nat.pow 2 51 }

def isNaN (x : Binary64) : Bool := infinite < x.magnitude

def isFinite (x : Binary64) : Bool := x.magnitude < infinite

/-- The absolute value that a magnitude encodes, counted in units of `2 ^ -1074`; at `infinite` it
is the power of two after the largest finite value. -/
def units (magnitude : Nat) : Nat :=
  if magnitude < Nat.pow 2 52 then magnitude
  else (Nat.pow 2 52 + magnitude % Nat.pow 2 52) * Nat.pow 2 (magnitude / Nat.pow 2 52 - 1)

/-- The signed value in units of `2 ^ -1074`. -/
def scaled (x : Binary64) : Int :=
  if x.negative then -(units x.magnitude : Int) else units x.magnitude

/-- Numeric comparison: the two zeros are equal, and nothing compares with what is not a number. -/
def compare (x y : Binary64) : Option Ordering :=
  if x.isNaN || y.isNaN then none else some (Ord.compare x.scaled y.scaled)

/-- The place of a number when sign and magnitude alone decide: the negative zero stands just below
the positive one, and each infinity between the finite numbers and the non-numbers of its sign. -/
def place (x : Binary64) : Int :=
  if x.negative then -(x.magnitude : Int) - 1 else x.magnitude

def totalCompare (x y : Binary64) : Ordering := Ord.compare x.place y.place

instance : BEq Binary64 := ⟨fun x y => x.compare y == some .eq⟩

theorem isNaN_nan : nan.isNaN = true := by decide

theorem isNaN_of_isFinite {x : Binary64} (h : x.isFinite = true) : x.isNaN = false := by
  simp only [isFinite, isNaN, decide_eq_true_eq, decide_eq_false_iff_not] at h ⊢
  omega

@[simp] theorem compare_nan_left (y : Binary64) : nan.compare y = none := by
  simp [compare, isNaN_nan]

@[simp] theorem compare_nan_right (x : Binary64) : x.compare nan = none := by
  simp [compare, isNaN_nan]

end Binary64

end RecordQuery
