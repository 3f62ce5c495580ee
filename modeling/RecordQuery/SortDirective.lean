import RecordQuery.Record
import RecordQuery.ScopeError

/-! Sort directives: the keys of a composite order, each with its own direction. A record without
the field is placed as if it held nil there. -/

namespace RecordQuery

structure SortDirective where
  field : KeyPath
  ascending : Bool
  deriving DecidableEq

namespace SortDirective

/-- The directive for a field that is given by name. -/
def named (field : String) (ascending : Bool) : Except ScopeError SortDirective :=
  match KeyPath.parse field with
  | .ok path => .ok { field := path, ascending }
  | .error _ => .error (.invalidSortField field)

/-- A directive that is only accepted with a valid path. -/
def checked (d : SortDirective) : Except ScopeError SortDirective :=
  if d.field.isValid then .ok d else .error (.invalidSortField d.field.text)

/-- What a record is placed by. -/
def key (d : SortDirective) (look : Lookup) : Value := (look d.field).getD .nil

def compare (d : SortDirective) (a b : Lookup) : Ordering :=
  let ordering := (d.key a).collate (d.key b)
  if d.ascending then ordering else ordering.swap

def text (d : SortDirective) : String :=
  d.field.text ++ (if d.ascending then " ASC" else " DESC")

/-- All parts of a directive by name, as diagnostics show them. -/
def shown (d : SortDirective) : String :=
  "SortDirective \x7b field: KeyPath \x7b steps: ["
    ++ ", ".intercalate (d.field.steps.map Text.shown)
    ++ "] \x7d, ascending: " ++ (if d.ascending then "true" else "false") ++ " \x7d"

end SortDirective

/-- The first directive that tells two records apart decides. -/
def compareBy (directives : List SortDirective) (a b : Lookup) : Ordering :=
  directives.foldr (fun d rest => (d.compare a b).then rest) .eq

@[simp] theorem compareBy_nil (a b : Lookup) : compareBy [] a b = .eq := rfl

theorem compareBy_cons (d : SortDirective) (ds : List SortDirective) (a b : Lookup) :
    compareBy (d :: ds) a b = (d.compare a b).then (compareBy ds a b) := rfl

end RecordQuery
