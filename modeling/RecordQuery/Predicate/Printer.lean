import RecordQuery.Predicate.Basic

/-! Canonical text of predicates. Operators have one spelling, strings one kind of quote, and an
operand of AND, OR or NOT stands in parentheses exactly when it is compound itself. -/

namespace RecordQuery

/-- A text in parentheses when it stands for something compound. -/
def grouped (compound : Bool) (text : List Char) : List Char :=
  if compound then '(' :: (text ++ [')']) else text

/-- A comparison of two written operands. -/
def comparisonText (left : List Char) (op : Operator) (foldCase : Bool) (right : List Char) :
    List Char :=
  left ++ ' ' :: (op.symbol.toList ++ (if foldCase then ['[', 'c', ']'] else []) ++ ' ' :: right)

def Placeholder.chars : Placeholder → List Char
  | value => ['%', '@']
  | key => ['%', 'K']

def Operand.chars : Operand → List Char
  | literal v => v.chars
  | path p => p.chars
  | placeholder p => p.chars

namespace Connective

def word : Connective → List Char
  | and => "AND".toList
  | or => "OR".toList

/-- Written operands with the connective between them. -/
def join (kind : Connective) (operands : List (List Char)) : List Char :=
  (' ' :: (kind.word ++ [' '])).intercalate operands

end Connective

namespace Predicate

mutual

def chars : Predicate → List Char
  | comparison left op right foldCase => comparisonText left.chars op foldCase right.chars
  | compound kind operands => kind.join (operandChars operands)
  | not operand => "NOT ".toList ++ grouped operand.isCompound operand.chars
  | constant value => if value then "TRUEPREDICATE".toList else "FALSEPREDICATE".toList

def operandChars : List Predicate → List (List Char)
  | [] => []
  | p :: ps => grouped p.isCompound p.chars :: operandChars ps

end

@[simp] theorem operandChars_eq (ps : List Predicate) :
    operandChars ps = ps.map fun p => grouped p.isCompound p.chars := by
  induction ps <;> simp_all [operandChars]

def text (p : Predicate) : String := String.ofList p.chars

end Predicate

end RecordQuery
