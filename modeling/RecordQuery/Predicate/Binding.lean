import RecordQuery.Predicate.Reader

/-! Binding arguments. There have to be as many arguments as placeholders; then each placeholder
takes the next argument, in the order in which the predicate is written. A value stands for itself
unless it is a number that is not finite, and a key is the name of a path. -/

namespace RecordQuery

namespace Placeholder

/-- What one argument makes of a placeholder. -/
def bind : Placeholder → Value → Except FormatError Operand
  | value, .float x => if x.isFinite then .ok (.literal (.float x)) else .error (.nonFiniteNumber x)
  | value, argument => .ok (.literal argument)
  | key, .string name => .path <$> KeyPath.parse name
  | key, argument => .error (.keyPathArgument argument.kind)

end Placeholder

/-- Bind an operand, and return the arguments that are left. -/
def Operand.bind : Operand → List Value → Except FormatError (Operand × List Value)
  | placeholder _, [] => .error (.placeholderCount 1 0)
  | placeholder p, argument :: rest => (·, rest) <$> p.bind argument
  | operand, arguments => .ok (operand, arguments)

namespace Predicate

mutual

/-- Bind a predicate, and return the arguments that are left. -/
def bindFrom : Predicate → List Value → Except FormatError (Predicate × List Value)
  | comparison left op right foldCase, arguments => do
    let (left, arguments) ← left.bind arguments
    let (right, arguments) ← right.bind arguments
    return (comparison left op right foldCase, arguments)
  | compound kind operands, arguments => do
    let (operands, arguments) ← bindAllFrom operands arguments
    return (compound kind operands, arguments)
  | not operand, arguments => do
    let (operand, arguments) ← operand.bindFrom arguments
    return (not operand, arguments)
  | constant value, arguments => .ok (constant value, arguments)

def bindAllFrom : List Predicate → List Value → Except FormatError (List Predicate × List Value)
  | [], arguments => .ok ([], arguments)
  | p :: ps, arguments => do
    let (p, arguments) ← p.bindFrom arguments
    let (ps, arguments) ← bindAllFrom ps arguments
    return (p :: ps, arguments)

end

def bind (p : Predicate) (arguments : List Value) : Except FormatError Predicate :=
  if p.placeholderCount = arguments.length then Prod.fst <$> p.bindFrom arguments
  else .error (.placeholderCount p.placeholderCount arguments.length)

/-- Read a predicate format and bind its placeholders. -/
def parseWith (format : String) (arguments : List Value) : Except FormatError Predicate := do
  (← parse format).bind arguments

end Predicate

end RecordQuery
