import RecordQuery.KeyPath
import RecordQuery.Operator

/-! Predicates: comparisons of literals, key paths and placeholders, joined by AND and OR, negated,
or constant. A placeholder waits for an argument, a value or the name of a key path; arguments are
taken from left to right. -/

namespace RecordQuery

inductive Placeholder where
  | value | key
  deriving DecidableEq

inductive Operand where
  | literal (v : Value)
  | path (p : KeyPath)
  | placeholder (p : Placeholder)
  deriving BEq

inductive Connective where
  | and | or
  deriving DecidableEq

inductive Predicate where
  | comparison (left : Operand) (op : Operator) (right : Operand) (foldCase : Bool)
  | compound (kind : Connective) (operands : List Predicate)
  | not (operand : Predicate)
  | constant (value : Bool)
  deriving BEq

/-- The placeholders of an operand: one or none. -/
def Operand.placeholders : Operand → List Placeholder
  | .placeholder p => [p]
  | _ => []

namespace Predicate

def isCompound : Predicate → Bool
  | compound _ _ => true
  | _ => false

mutual

/-- The placeholders from left to right. -/
def placeholders : Predicate → List Placeholder
  | comparison left _ right _ => left.placeholders ++ right.placeholders
  | compound _ operands => placeholdersOfAll operands
  | not operand => operand.placeholders
  | constant _ => []

def placeholdersOfAll : List Predicate → List Placeholder
  | [] => []
  | p :: ps => p.placeholders ++ placeholdersOfAll ps

end

@[simp] theorem placeholdersOfAll_eq (ps : List Predicate) :
    placeholdersOfAll ps = ps.flatMap placeholders := by
  induction ps <;> simp_all [placeholdersOfAll]

def placeholderCount (p : Predicate) : Nat := p.placeholders.length

/-- A chain of one operand is that operand. -/
def chain (kind : Connective) : List Predicate → Predicate
  | [p] => p
  | ps => compound kind ps

@[simp] theorem chain_singleton (kind : Connective) (p : Predicate) : chain kind [p] = p := rfl

theorem chain_of_two_le {kind : Connective} {ps : List Predicate} (h : 2 ≤ ps.length) :
    chain kind ps = compound kind ps := by
  unfold chain
  split
  · simp at h
  · rfl

end Predicate

end RecordQuery
