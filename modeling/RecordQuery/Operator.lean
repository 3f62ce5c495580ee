import RecordQuery.Value.Order

/-! The nine comparison operators: six that follow the partial comparison of values and three that
look for one string in another. Incomparable values are unequal, and that is all that holds of
them. Folding case lower-cases both strings as wholes before they are compared. -/

namespace RecordQuery

inductive Operator where
  | equal | notEqual
  | less | lessOrEqual | greater | greaterOrEqual
  | beginsWith | contains | endsWith
  deriving DecidableEq

namespace Operator

def all : List Operator :=
  [equal, notEqual, less, lessOrEqual, greater, greaterOrEqual, beginsWith, contains, endsWith]

def symbol : Operator → String
  | equal => "=="
  | notEqual => "!="
  | less => "<"
  | lessOrEqual => "<="
  | greater => ">"
  | greaterOrEqual => ">="
  | beginsWith => "BEGINSWITH"
  | contains => "CONTAINS"
  | endsWith => "ENDSWITH"

/-- Whether the first text stands somewhere in the second. -/
def occursIn (s : List Char) : List Char → Bool
  | [] => s.isEmpty
  | c :: t => s.isPrefixOf (c :: t) || occursIn s t

theorem occursIn_iff {s t : List Char} : occursIn s t = true ↔ s <:+: t := by
  induction t with
  | nil => simp [occursIn]
  | cons c t ih => simp [occursIn, ih, List.infix_cons_iff]

/-- A relation of strings, false of other values. -/
def onStrings (relates : List Char → List Char → Bool) : Value → Value → Bool
  | .string l, .string r => relates l.toList r.toList
  | _, _ => false

/-- Whether two values stand in the relation, with case as it is. -/
def relates (op : Operator) (l r : Value) : Bool :=
  match op with
  | equal => l.compare r == some .eq
  | notEqual => l.compare r != some .eq
  | less => l.compare r == some .lt
  | lessOrEqual => l.compare r == some .lt || l.compare r == some .eq
  | greater => l.compare r == some .gt
  | greaterOrEqual => l.compare r == some .gt || l.compare r == some .eq
  | beginsWith => onStrings (fun l r => decide (r <+: l)) l r
  | contains => onStrings (fun l r => occursIn r l) l r
  | endsWith => onStrings (fun l r => decide (r <:+ l)) l r

def holds (op : Operator) (foldCase : Bool) (l r : Value) : Bool :=
  if foldCase then op.relates l.lower r.lower else op.relates l r

@[simp] theorem holds_false (op : Operator) (l r : Value) :
    op.holds false l r = op.relates l r := rfl

@[simp] theorem holds_true (op : Operator) (l r : Value) :
    op.holds true l r = op.relates l.lower r.lower := rfl

end Operator

end RecordQuery
