import RecordQuery.Decimal.Layout
import RecordQuery.Text.LowerCase
import RecordQuery.Text.Quoted

/-! Scalars: what a record holds at the end of a key path and what a predicate compares it with.
The canonical text of a value is what the predicate language reads, so it keeps less than the
value: a boolean is written as an integer, and so is a whole double. -/

namespace RecordQuery

inductive Value where
  | nil
  | bool (b : Bool)
  | integer (n : Int64)
  | float (x : Binary64)
  | string (s : String)
  deriving DecidableEq

/-- The kinds of scalars, as diagnostics name them. -/
inductive Value.Kind where
  | nil | bool | integer | float | string
  deriving DecidableEq

namespace Value

namespace Kind

def name : Kind → String
  | nil => "nil"
  | bool => "bool"
  | integer => "integer"
  | float => "float"
  | string => "string"

end Kind

def kind : Value → Kind
  | nil => .nil
  | bool _ => .bool
  | integer _ => .integer
  | float _ => .float
  | string _ => .string

def isNil : Value → Bool
  | nil => true
  | _ => false

def string? : Value → Option String
  | string s => some s
  | _ => none

/-- A double is the only scalar that may lack a canonical text that reads back. -/
def isFinite : Value → Bool
  | float x => x.isFinite
  | _ => true

def ofOption : Option Value → Value := (·.getD nil)

/-- Equality that tells kinds apart, with doubles compared as numbers: the zeros are equal and what
is not a number differs from itself. -/
protected def beq : Value → Value → Bool
  | nil, nil => true
  | bool a, bool b => a == b
  | integer a, integer b => a == b
  | float a, float b => a == b
  | string a, string b => a == b
  | _, _ => false

instance : BEq Value := ⟨Value.beq⟩

/-- An integer as a value: exact within 64 bits, the nearest double beyond them. -/
def ofInt (n : Int) : Value :=
  match int64? n with
  | some m => integer m
  | none => float (.ofInt n)

/-- The value a number literal names: an integer unless it has a fraction or an exponent. -/
def ofNumeral (n : Numeral) : Value :=
  if n.isInteger then ofInt n.toInt else float n.toBinary64

/-- The characters of the canonical text. -/
def chars : Value → List Char
  | nil => "nil".toList
  | bool b => if b then ['1'] else ['0']
  | integer n => (Numeral.ofInt n.toInt).chars
  | float x => x.chars
  | string s => Text.quote s.toList

def text (v : Value) : String := String.ofList v.chars

/-- Strings in lower case, everything else as it is. -/
def lower : Value → Value
  | string s => string (String.ofList (Text.lower s.toList))
  | v => v

@[simp] theorem kind_lower (v : Value) : v.lower.kind = v.kind := by cases v <;> rfl

end Value

end RecordQuery
