import RecordQuery.Json.Reader
import RecordQuery.Json.Shape
import RecordQuery.Operator
import RecordQuery.KeyPath

/-! The persisted form of values, key paths and operators. -/

namespace RecordQuery

/-- How deeply objects and arrays may be nested in a persisted text that is read. -/
def persistedRoom : Nat := 127

namespace Value

def encode : Value → Json
  | nil => .text "Nil"
  | bool b => .variant "Bool" (.bool b)
  | integer n => .variant "I64" (.integer n.toInt)
  | float x => .variant "F64" (.float x)
  | string s => .variant "String" (.text s)

def decode (room : Nat) (j : Json) : Option Value := do
  match ← j.variant? room with
  | ("Nil", .null) => some nil
  | ("Bool", content) => bool <$> content.bool?
  | ("I64", content) => integer <$> content.integer?
  | ("F64", content) => float <$> content.float?
  | ("String", content) => string <$> content.text?
  | _ => none

def persisted (v : Value) : String := v.encode.print

def restore? (s : String) : Option Value := Json.parse? s >>= decode persistedRoom

end Value

namespace KeyPath

def encode (path : KeyPath) : Json := .struct [("steps", .array (path.steps.map .text))]

def decode (room : Nat) (j : Json) : Option KeyPath := do
  let [steps] ← j.members? room ["steps"] | none
  return ⟨← (← steps.items? (room - 1)).mapM Json.text?⟩

def persisted (path : KeyPath) : String := path.encode.print

def restore? (s : String) : Option KeyPath := Json.parse? s >>= decode persistedRoom

end KeyPath

namespace Operator

def name : Operator → String
  | equal => "Equal"
  | notEqual => "NotEqual"
  | less => "LessThan"
  | lessOrEqual => "LessThanOrEqual"
  | greater => "GreaterThan"
  | greaterOrEqual => "GreaterThanOrEqual"
  | beginsWith => "BeginsWith"
  | contains => "Contains"
  | endsWith => "EndsWith"

def encode (op : Operator) : Json := .text op.name

def decode (room : Nat) (j : Json) : Option Operator := do
  let (tag, .null) ← j.variant? room | none
  all.find? (·.name = tag)

end Operator

end RecordQuery
