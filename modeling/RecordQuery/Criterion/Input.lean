import RecordQuery.Criterion.Basic
import RecordQuery.Predicate.Binding

/-! What a scope can be filtered by, and the one criterion each input stands for. A map of fields
is a conjunction of equalities in the order of its entries, also with a single entry; with none it
filters nothing. -/

namespace RecordQuery

inductive CriterionInput where
  | fields (entries : List (String × Value))
  | criterion (c : Criterion)
  /-- The criterion of another scope, if it has one. -/
  | scope (c : Option Criterion)
  | predicate (p : Predicate)
  | format (format : String) (arguments : List Value)

namespace CriterionInput

/-- The kind of an input, as diagnostics name it. -/
def shape : CriterionInput → String
  | fields _ => "field map"
  | criterion _ => "criterion"
  | scope _ => "scope"
  | predicate _ => "predicate"
  | format _ _ => "format string"

/-- One equality per entry; `seen` holds the paths of the entries before. -/
def equalities (seen : List KeyPath) : List (String × Value) → Except ScopeError (List Criterion)
  | [] => .ok []
  | (key, v) :: entries =>
    match KeyPath.parse key with
    | .error _ => .error (.invalidFieldPath key)
    | .ok path =>
      if path ∈ seen then .error (.unfit (.repeatedKey key))
      else (.comparison path .equal (.value v) false :: ·) <$> equalities (path :: seen) entries

/-- A criterion that has been found fit for a scope. -/
def checked (c : Criterion) : Except ScopeError (Option Criterion) := do
  c.validate
  return some c

/-- The criterion an input stands for, if it filters anything. -/
def normalize : CriterionInput → Except ScopeError (Option Criterion)
  | fields [] => .ok none
  | fields entries => do checked (.logical .and (← equalities [] entries))
  | criterion c => checked c
  | scope c => .ok c
  | predicate p => checked (.native p)
  | format text arguments =>
    match Predicate.parseWith text arguments with
    | .ok p => .ok (some (.native p))
    | .error error => .error (.format error)

/-- Put an entry into a map that keeps the order of its keys: a repeated key keeps its place and
takes the new value. -/
def putEntry (key : String) (v : Value) : List (String × Value) → List (String × Value)
  | [] => [(key, v)]
  | (k, old) :: entries =>
    if k = key then (k, v) :: entries else (k, old) :: putEntry key v entries

/-- Entries collected into a map, one after the other. -/
def ofEntries (entries : List (String × Value)) : CriterionInput :=
  fields (entries.foldl (fun collected (key, v) => putEntry key v collected) [])

/-- The scalar a document is, or what to say of one that is none. -/
def scalarOr (unfit : Document.Kind → Unfit) (d : Document) : Except ScopeError Value :=
  match d.scalar? with
  | some v => .ok v
  | none => .error (.unfit (unfit d.kind))

/-- The input a document describes: an object is a map of fields, a string a format, and an array
that starts with a string a format and its arguments. -/
def ofDocument : Document → Except ScopeError CriterionInput
  | .object entries =>
    fields <$> entries.mapM fun (key, d) => (key, ·) <$> scalarOr (.fieldHolding key) d
  | .string text => .ok (format text [])
  | .array (.string text :: arguments) =>
    format text <$> arguments.mapM (scalarOr .argumentHolding)
  | .array (first :: _) => .error (.unfit (.arrayStartingWith first.kind))
  | .array [] => .error (.unfit .emptyArray)
  | d => .error (.unfit (.document d.kind))

end CriterionInput

end RecordQuery
