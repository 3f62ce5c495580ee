import RecordQuery.Persisted.Scalar
import RecordQuery.SortDirective

/-! The persisted form of sort directives and targets. -/

namespace RecordQuery

namespace SortDirective

def encode (d : SortDirective) : Json :=
  .struct [("field", d.field.encode), ("ascending", .bool d.ascending)]

def decode (room : Nat) (j : Json) : Option SortDirective := do
  let [field, ascending] ← j.members? room ["field", "ascending"] | none
  return { field := ← KeyPath.decode (room - 1) field, ascending := ← ascending.bool? }

def persisted (d : SortDirective) : String := d.encode.print

def restore? (s : String) : Option SortDirective := Json.parse? s >>= decode persistedRoom

/-- The persisted form of a list of directives. -/
def persistedList (ds : List SortDirective) : String := (Json.array (ds.map encode)).print

end SortDirective

namespace Target

def encode (target : Target) : Json := .text target.name

def decode (j : Json) : Option Target := Target.mk <$> j.text?

def persisted (target : Target) : String := target.encode.print

def restore? (s : String) : Option Target := Json.parse? s >>= decode

end Target

end RecordQuery
