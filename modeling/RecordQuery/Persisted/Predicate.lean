import RecordQuery.Persisted.Scalar
import RecordQuery.Predicate.Basic

/-! The persisted form of predicates: their tree, field by field. -/

namespace RecordQuery

namespace Placeholder

def name : Placeholder → String
  | value => "Value"
  | key => "Key"

def encode (p : Placeholder) : Json := .text p.name

def decode (room : Nat) (j : Json) : Option Placeholder := do
  match ← j.variant? room with
  | ("Value", .null) => some value
  | ("Key", .null) => some key
  | _ => none

end Placeholder

namespace Operand

def encode : Operand → Json
  | literal v => .variant "Literal" v.encode
  | path p => .variant "Path" p.encode
  | placeholder p => .variant "Placeholder" p.encode

def decode (room : Nat) (j : Json) : Option Operand := do
  match ← j.variant? room with
  | ("Literal", content) => literal <$> Value.decode (room - 1) content
  | ("Path", content) => path <$> KeyPath.decode (room - 1) content
  | ("Placeholder", content) => placeholder <$> Placeholder.decode (room - 1) content
  | _ => none

end Operand

namespace Connective

def name : Connective → String
  | and => "And"
  | or => "Or"

def encode (kind : Connective) : Json := .text kind.name

def decode (room : Nat) (j : Json) : Option Connective := do
  match ← j.variant? room with
  | ("And", .null) => some and
  | ("Or", .null) => some or
  | _ => none

end Connective

namespace Predicate

mutual

def encode : Predicate → Json
  | comparison left op right foldCase =>
    .variant "Comparison" (.struct [("left", left.encode), ("operator", op.encode),
      ("right", right.encode), ("case_insensitive", .bool foldCase)])
  | compound kind operands =>
    .variant "Compound" (.struct [("kind", kind.encode), ("operands", .array (encodeAll operands))])
  | not operand => .variant "Not" operand.encode
  | constant value => .text (if value then "True" else "False")

def encodeAll : List Predicate → List Json
  | [] => []
  | p :: ps => p.encode :: encodeAll ps

end

def decodeComparison (room : Nat) (j : Json) : Option Predicate := do
  let [left, op, right, foldCase] ←
    j.members? room ["left", "operator", "right", "case_insensitive"] | none
  return comparison (← Operand.decode (room - 1) left) (← Operator.decode (room - 1) op)
    (← Operand.decode (room - 1) right) (← foldCase.bool?)

def decode (room : Nat) (j : Json) : Option Predicate :=
  match room, j.variant? room with
  | _, some ("True", .null) => some (constant true)
  | _, some ("False", .null) => some (constant false)
  | room + 1, some ("Comparison", content) => decodeComparison room content
  | room + 1, some ("Compound", content) => do
    let [kind, operands] ← content.members? room ["kind", "operands"] | none
    let kind ← Connective.decode (room - 1) kind
    let operands ← operands.items? (room - 1)
    return compound kind (← operands.mapM (decode (room - 2)))
  | room + 1, some ("Not", content) => not <$> decode room content
  | _, _ => none
termination_by room

def persisted (p : Predicate) : String := p.encode.print

def restore? (s : String) : Option Predicate := Json.parse? s >>= decode persistedRoom

end Predicate

end RecordQuery
