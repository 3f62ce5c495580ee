import RecordQuery.Value.Order

/-! Documents: the data that records are made of. Objects keep the order of their fields and have
each name once; they are equal whatever that order is, and an integer never equals a float. -/

namespace RecordQuery

inductive Document where
  | null
  | bool (b : Bool)
  /-- An integer. Data that is read holds those that fit into 64 bits, with or without a sign. -/
  | integer (n : Int)
  | float (x : Binary64)
  | string (s : String)
  | array (items : List Document)
  | object (fields : List (String × Document))

/-- The kinds of documents, as diagnostics name them. -/
inductive Document.Kind where
  | null | bool | number | string | array | object
  deriving DecidableEq

namespace Document

def Kind.name : Kind → String
  | null => "null"
  | bool => "bool"
  | number => "number"
  | string => "string"
  | array => "array"
  | object => "object"

def kind : Document → Kind
  | null => .null
  | bool _ => .bool
  | integer _ | float _ => .number
  | string _ => .string
  | array _ => .array
  | object _ => .object

/-- The scalar a document is; arrays and objects have none. -/
def scalar? : Document → Option Value
  | null => some .nil
  | bool b => some (.bool b)
  | integer n => some (.ofInt n)
  | float x => some (.float x)
  | string s => some (.string s)
  | array _ | object _ => none

def field? : Document → String → Option Document
  | object fields, name => fields.lookup name
  | _, _ => none

/-- The document that steps lead to, through objects only. -/
def follow (d : Document) (steps : List String) : Option Document := steps.foldlM field? d

mutual

protected def beq : Document → Document → Bool
  | null, null => true
  | bool a, bool b => a == b
  | integer a, integer b => a == b
  | float a, float b => a == b
  | string a, string b => a == b
  | array a, array b => beqItems a b
  | object a, object b => a.length == b.length && beqFields a b
  | _, _ => false

def beqItems : List Document → List Document → Bool
  | [], [] => true
  | a :: as, b :: bs => a.beq b && beqItems as bs
  | _, _ => false

/-- Whether every field of the first object has an equal one of the same name in the second. -/
def beqFields : List (String × Document) → List (String × Document) → Bool
  | [], _ => true
  | (name, a) :: as, bs =>
    (match bs.lookup name with
      | some b => a.beq b
      | none => false) && beqFields as bs

end

instance : BEq Document := ⟨Document.beq⟩

@[simp] theorem follow_nil (d : Document) : d.follow [] = some d := rfl

theorem follow_cons (d : Document) (step : String) (steps : List String) :
    d.follow (step :: steps) = (d.field? step).bind (·.follow steps) := rfl

end Document

end RecordQuery
