import RecordQuery.Value.Basic

/-! Two orders on scalars. Comparison is partial: booleans and numbers form one family, in which
two integers compare exactly and anything else as doubles; strings compare with strings and nil
equals nil. Collation is what sorting uses and is defined everywhere: nil first, then the numeric
family, then strings, with everything that does not compare placed by sign and magnitude. -/

namespace RecordQuery.Value

/-- The exact integer of a boolean or an integer. -/
def int? : Value → Option Int
  | bool b => some (if b then 1 else 0)
  | integer n => some n.toInt
  | _ => none

/-- The double of a member of the numeric family, rounded where an integer has none of its own. -/
def double? : Value → Option Binary64
  | bool b => some (.ofInt (if b then 1 else 0))
  | integer n => some (.ofInt n.toInt)
  | float x => some x
  | _ => none

def compare : Value → Value → Option Ordering
  | nil, nil => some .eq
  | string a, string b => some (Ord.compare a b)
  | a, b =>
    match a.int?, b.int? with
    | some m, some n => some (Ord.compare m n)
    | _, _ =>
      match a.double?, b.double? with
      | some x, some y => x.compare y
      | _, _ => none

/-- The place of a family in collation. -/
def family : Value → Nat
  | nil => 0
  | bool _ | integer _ | float _ => 1
  | string _ => 2

/-- The order of two values of one family. -/
def collateWithin (a b : Value) : Ordering :=
  match a.compare b with
  | some ordering => ordering
  | none => (a.double?.getD .nan).totalCompare (b.double?.getD .nan)

def collate (a b : Value) : Ordering := (Ord.compare a.family b.family).then (a.collateWithin b)

theorem compare_integers (m n : Int64) :
    (integer m).compare (integer n) = some (Ord.compare m.toInt n.toInt) := rfl

/-- Two integers that share a double compare as integers, but each is equal to that double. -/
example :
    (integer (2 ^ 53 + 1)).compare (integer (2 ^ 53)) = some .gt ∧
      (integer (2 ^ 53 + 1)).compare (float (.ofInt (2 ^ 53))) = some .eq := by decide +kernel

end RecordQuery.Value
