import RecordQuery.Criterion.Printer
import RecordQuery.Persisted.Predicate
import RecordQuery.Predicate.Reader

/-! The persisted form of criteria. Comparisons and groups are persisted as trees, adopted
predicates as their canonical text, which is read again when the criterion is restored. -/

namespace RecordQuery

namespace Literal

def encode : Literal → Json
  | value v => .variant "Value" v.encode
  | field path => .variant "Field" path.encode

def decode (room : Nat) (j : Json) : Option Literal := do
  match ← j.variant? room with
  | ("Value", content) => value <$> Value.decode (room - 1) content
  | ("Field", content) => field <$> KeyPath.decode (room - 1) content
  | _ => none

end Literal

namespace Logic

def name : Logic → String
  | and => "And"
  | or => "Or"
  | not => "Not"

def encode (kind : Logic) : Json := .text kind.name

def decode (room : Nat) (j : Json) : Option Logic := do
  match ← j.variant? room with
  | ("And", .null) => some and
  | ("Or", .null) => some or
  | ("Not", .null) => some not
  | _ => none

end Logic

namespace Criterion

mutual

def encode : Criterion → Json
  | comparison field op literal foldCase =>
    .variant "Comparison" (.struct [("field", field.encode), ("operator", op.encode),
      ("value", literal.encode), ("case_insensitive", .bool foldCase)])
  | logical kind operands =>
    .variant "Logical" (.struct [("kind", kind.encode), ("operands", .array (encodeAll operands))])
  | native p => .variant "Opaque" (.text p.text)
  | external e => .variant "Opaque" (.text e.text)

def encodeAll : List Criterion → List Json
  | [] => []
  | c :: cs => c.encode :: encodeAll cs

end

def decodeComparison (room : Nat) (j : Json) : Option Criterion := do
  let [field, op, literal, foldCase] ←
    j.members? room ["field", "operator", "value", "case_insensitive"] | none
  return comparison (← KeyPath.decode (room - 1) field) (← Operator.decode (room - 1) op)
    (← Literal.decode (room - 1) literal) (← foldCase.bool?)

/-- An adopted predicate is read from its text and is one of the predicate language from then on. -/
def decodeAdopted (j : Json) : Option Criterion := do
  match Predicate.parse (← j.text?) with
  | .ok p => return native p
  | .error _ => none

def decode (room : Nat) (j : Json) : Option Criterion :=
  match room, j.variant? room with
  | room + 1, some ("Comparison", content) => decodeComparison room content
  | room + 1, some ("Logical", content) => do
    let [kind, operands] ← content.members? room ["kind", "operands"] | none
    let kind ← Logic.decode (room - 1) kind
    let operands ← operands.items? (room - 1)
    return logical kind (← operands.mapM (decode (room - 2)))
  | _ + 1, some ("Opaque", content) => decodeAdopted content
  | _, _ => none
termination_by room

def persisted (c : Criterion) : String := c.encode.print

def restore? (s : String) : Option Criterion := Json.parse? s >>= decode persistedRoom

/-- The persisted form of a criterion that may be missing. -/
def persistedOption (c : Option Criterion) : String := ((c.map encode).getD .null).print

def restoreOption? (s : String) : Option (Option Criterion) := do
  match ← Json.parse? s with
  | .null => return none
  | j => some <$> decode persistedRoom j

end Criterion

end RecordQuery
