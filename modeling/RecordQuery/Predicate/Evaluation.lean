import RecordQuery.Predicate.Basic

/-! Evaluating a predicate on a record, which is seen through a lookup of key paths. A comparison
with a path that leads to no scalar is false. A placeholder that is met is an error; since AND and
OR stop at the first operand that decides them, one that is not met is none. -/

namespace RecordQuery

/-- A record as predicates see it. -/
abbrev Lookup := KeyPath → Option Value

/-- A placeholder that was met before an argument was bound to it. -/
structure Unbound where
  placeholder : Placeholder
  deriving DecidableEq

namespace Unbound

def message (error : Unbound) : String :=
  let kind := match error.placeholder with
    | .value => "Value"
    | .key => "Key"
  "unbound placeholder: " ++ kind ++ " must be substituted before filtering"

end Unbound

def Operand.resolve (look : Lookup) : Operand → Except Unbound (Option Value)
  | literal v => .ok (some v)
  | path p => .ok (look p)
  | placeholder p => .error ⟨p⟩

/-- Whether two resolved operands are there and stand in the relation. -/
def Operator.holdsBetween (op : Operator) (foldCase : Bool) : Option Value → Option Value → Bool
  | some l, some r => op.holds foldCase l r
  | _, _ => false

namespace Predicate

mutual

def evaluate (look : Lookup) : Predicate → Except Unbound Bool
  | comparison left op right foldCase => do
    let left ← left.resolve look
    let right ← right.resolve look
    return op.holdsBetween foldCase left right
  | compound .and operands => evaluateAll look operands
  | compound .or operands => evaluateAny look operands
  | not operand => (!·) <$> operand.evaluate look
  | constant value => .ok value

/-- Whether all operands are true, as far as the first that is not. -/
def evaluateAll (look : Lookup) : List Predicate → Except Unbound Bool
  | [] => .ok true
  | p :: ps => do if ← p.evaluate look then evaluateAll look ps else return false

/-- Whether an operand is true, as far as the first that is. -/
def evaluateAny (look : Lookup) : List Predicate → Except Unbound Bool
  | [] => .ok false
  | p :: ps => do if ← p.evaluate look then return true else evaluateAny look ps

end

end Predicate

end RecordQuery
