import RecordQuery.Document
import RecordQuery.Predicate.Evaluation

/-! Records: what can be looked up by key path. A document is followed step by step, and the empty
path leads to the document itself; an object on its own and a flat map of scalars have no such
path, and a flat map has no path of more than one step. A record behind a pointer is looked up as
the record it points to. -/

namespace RecordQuery

class Record (α : Type) where
  resolve : α → Lookup

instance : Record Document where
  resolve d path := (d.follow path.steps).bind Document.scalar?

instance : Record Lookup where
  resolve look := look

/-- The fields of an object. -/
structure ObjectRecord where
  fields : List (String × Document)

instance : Record ObjectRecord where
  resolve record path :=
    match path.steps with
    | [] => none
    | step :: steps =>
      (record.fields.lookup step).bind fun d => (d.follow steps).bind Document.scalar?

/-- A map from names to scalars. -/
structure FlatRecord where
  entries : List (String × Value)

instance : Record FlatRecord where
  resolve record path := if path.isSimple then record.entries.lookup path.first else none

/-- A pointer to a record, whether it owns, shares or borrows it. -/
structure Pointer (α : Type) where
  target : α

instance {α : Type} [Record α] : Record (Pointer α) where
  resolve pointer path := Record.resolve pointer.target path

end RecordQuery
