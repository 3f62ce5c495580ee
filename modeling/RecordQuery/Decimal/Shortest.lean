import RecordQuery.Decimal.Basic

/-! The shortest decimal that reads back as a given double. The numbers that round to a finite
double fill the interval between the midpoints to its two neighbours, ends included exactly when
its magnitude is even. A grid of spacing `10 ^ exponent` offers the two points next to the value;
the coarsest grid with a point in the interval gives the fewest digits, and of two points there
the nearer one is taken. Only an exact tie is left to the caller. -/

namespace RecordQuery

/-- Which of two grid points is taken when the value lies midway: the even one or the larger one. -/
inductive Tie where
  | even | up
  deriving DecidableEq

namespace Tie

/-- The grid point for a value between `below` and `below + 1`, by twice its excess over `below`
and the spacing. -/
def settle (tie : Tie) (below excess spacing : Nat) : Nat :=
  if excess < spacing then below
  else if spacing < excess then below + 1
  else match tie with
    | even => below + below % 2
    | up => below + 1

end Tie

namespace Binary64

/-- The interval of a magnitude, in units of `2 ^ -1075`: lower end, value, upper end. -/
def interval (magnitude : Nat) : Nat × Nat × Nat :=
  let here := units magnitude
  (units (magnitude - 1) + here, 2 * here, here + units (magnitude + 1))

/-- The point of the grid `10 ^ exponent` that stands for a magnitude, if one rounds to it. -/
def gridPoint? (tie : Tie) (magnitude : Nat) (exponent : Int) : Option Nat :=
  let (low, value, high) := interval magnitude
  let spacing := Nat.pow 2 1075 * Nat.pow 10 exponent.toNat
  let stretch := Nat.pow 10 (-exponent).toNat
  let inside (point : Nat) : Bool :=
    if magnitude % 2 = 0 then low * stretch ≤ point * spacing && point * spacing ≤ high * stretch
    else low * stretch < point * spacing && point * spacing < high * stretch
  let below := value * stretch / spacing
  match inside below, inside (below + 1) with
  | true, true => some (tie.settle below (2 * (value * stretch % spacing)) spacing)
  | true, false => some below
  | false, true => some (below + 1)
  | false, false => none

/-- An exponent of ten above a magnitude, from its binary one: `30103 / 100000` exceeds the
logarithm of two. -/
def decade (magnitude : Nat) : Int :=
  ((units magnitude).log2 + 1 - 1074 : Int) * 30103 / 100000 + 2

/-- The fewest digits that read back as a finite magnitude, searched from the coarsest grid down. -/
def shortest (tie : Tie) (magnitude : Nat) : Decimal :=
  if magnitude = 0 then ⟨0, 0⟩
  else
    let found := (List.range 24).findSome? fun (step : Nat) =>
      let exponent := decade magnitude - step
      (gridPoint? tie magnitude exponent).map fun coefficient => ⟨coefficient, exponent⟩
    found.getD ⟨0, 0⟩

@[simp] theorem shortest_zero (tie : Tie) : shortest tie 0 = ⟨0, 0⟩ := rfl

example : shortest .even 0x3fb999999999999a = ⟨1, -1⟩ := by decide +kernel

example : shortest .up 1 = ⟨5, -324⟩ := by decide +kernel

end Binary64

end RecordQuery
