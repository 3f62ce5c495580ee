import RecordQuery.Predicate.Evaluation
import RecordQuery.ScopeError

/-! Criteria: the filters of scopes. A criterion is built from comparisons of a field with a value
or another field, and from predicates it has adopted: those of the predicate language, and external
ones of which only a text, a test and the number of arguments they still wait for are known. -/

namespace RecordQuery

/-- A predicate of another language. -/
structure External where
  text : String
  /-- Whether the text needs parentheses as an operand. -/
  isCompound : Bool
  placeholderCount : Nat
  holds : Lookup → Bool

/-- The right-hand side of a comparison. -/
inductive Literal where
  | value (v : Value)
  | field (path : KeyPath)

inductive Logic where
  | and | or | not
  deriving DecidableEq

inductive Criterion where
  | comparison (field : KeyPath) (op : Operator) (literal : Literal) (foldCase : Bool)
  | logical (kind : Logic) (operands : List Criterion)
  | native (p : Predicate)
  | external (e : External)

def Literal.resolve (look : Lookup) : Literal → Option Value
  | value v => some v
  | field path => look path

namespace Criterion

def and (a b : Criterion) : Criterion := logical .and [a, b]

def or (a b : Criterion) : Criterion := logical .or [a, b]

def negate (a : Criterion) : Criterion := logical .not [a]

/-- Both criteria, where there are two; a missing one lets the other through unchanged. -/
def combine : Option Criterion → Option Criterion → Option Criterion
  | none, b => b
  | a, none => a
  | some a, some b => some (a.and b)

/-- Whether the text needs parentheses as an operand. -/
def isCompound : Criterion → Bool
  | comparison .. => false
  | logical kind _ => kind != .not
  | native p => p.isCompound
  | external e => e.isCompound

mutual

/-- Whether a record is selected. A path that leads to no scalar makes its comparison false, and so
does a placeholder that is met in an adopted predicate. -/
def selects (look : Lookup) : Criterion → Bool
  | comparison field op literal foldCase =>
    op.holdsBetween foldCase (look field) (literal.resolve look)
  | logical .and operands => allSelect look operands
  | logical .or operands => anySelects look operands
  | logical .not operands => !allSelect look operands
  | native p =>
    match p.evaluate look with
    | .ok b => b
    | .error _ => false
  | external e => e.holds look

def allSelect (look : Lookup) : List Criterion → Bool
  | [] => true
  | c :: cs => c.selects look && allSelect look cs

def anySelects (look : Lookup) : List Criterion → Bool
  | [] => false
  | c :: cs => c.selects look || anySelects look cs

end

@[simp] theorem allSelect_eq (look : Lookup) (cs : List Criterion) :
    allSelect look cs = cs.all (selects look) := by
  induction cs <;> simp_all [allSelect]

@[simp] theorem anySelects_eq (look : Lookup) (cs : List Criterion) :
    anySelects look cs = cs.any (selects look) := by
  induction cs <;> simp_all [anySelects]

/-! ### Validity -/

/-- The first fault of a comparison: its field, then its literal. -/
def checkComparison (field : KeyPath) (literal : Literal) : Except ScopeError Unit :=
  if field.isValid then
    match literal with
    | .field path => if path.isValid then .ok () else .error (.invalidFieldPath path.text)
    | .value (.float x) =>
      if x.isFinite then .ok () else .error (.format (.nonFiniteNumber x))
    | .value _ => .ok ()
  else .error (.invalidFieldPath field.text)

/-- An adopted predicate must wait for no argument. -/
def checkPlaceholders : Nat → Except ScopeError Unit
  | 0 => .ok ()
  | expected => .error (.format (.placeholderCount expected 0))

mutual

/-- The first fault from the left that keeps a criterion out of scopes. -/
def validate : Criterion → Except ScopeError Unit
  | comparison field _ literal _ => checkComparison field literal
  | logical _ operands => validateAll operands
  | native p => checkPlaceholders p.placeholderCount
  | external e => checkPlaceholders e.placeholderCount

def validateAll : List Criterion → Except ScopeError Unit
  | [] => .ok ()
  | c :: cs => do
    c.validate
    validateAll cs

end

theorem combine_none_left (c : Option Criterion) : combine none c = c := rfl

theorem combine_none_right (c : Option Criterion) : combine c none = c := by cases c <;> rfl

end Criterion

end RecordQuery
