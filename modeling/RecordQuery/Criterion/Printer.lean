import RecordQuery.Criterion.Basic
import RecordQuery.Predicate.Printer

/-! Canonical text of criteria, in the predicate language: an operand stands in parentheses exactly
when it is compound itself, and a group without operands is the constant it amounts to. Two criteria
are equal when their texts are, whatever their trees. -/

namespace RecordQuery

def Literal.chars : Literal → List Char
  | value v => v.chars
  | field path => path.chars

/-- Written operands joined by AND or OR; none at all are always true or always false. -/
def Connective.joinOrConstant (kind : Connective) : List (List Char) → List Char
  | [] => (Predicate.constant (kind == .and)).chars
  | operands => kind.join operands

namespace Criterion

/-- The text of a group: a negation of one operand needs no parentheses of its own. -/
def logicalChars : Logic → List (List Char) → List Char
  | .and, operands => Connective.and.joinOrConstant operands
  | .or, operands => Connective.or.joinOrConstant operands
  | .not, [operand] => "NOT ".toList ++ operand
  | .not, operands => "NOT (".toList ++ Connective.and.joinOrConstant operands ++ [')']

mutual

def chars : Criterion → List Char
  | comparison field op literal foldCase =>
    comparisonText field.chars op foldCase literal.chars
  | logical kind operands => logicalChars kind (operandChars operands)
  | native p => p.chars
  | external e => e.text.toList

def operandChars : List Criterion → List (List Char)
  | [] => []
  | c :: cs => grouped c.isCompound c.chars :: operandChars cs

end

@[simp] theorem operandChars_eq (cs : List Criterion) :
    operandChars cs = cs.map fun c => grouped c.isCompound c.chars := by
  induction cs <;> simp_all [operandChars]

def text (c : Criterion) : String := String.ofList c.chars

instance : BEq Criterion := ⟨fun a b => a.text == b.text⟩

theorem beq_iff {a b : Criterion} : (a == b) = true ↔ a.text = b.text := by
  simp only [BEq.beq, decide_eq_true_eq]

def shown (c : Criterion) : String := "Criterion(" ++ c.text ++ ")"

end Criterion

end RecordQuery
