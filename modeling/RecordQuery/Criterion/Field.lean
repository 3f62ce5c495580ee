import RecordQuery.Criterion.Basic

/-! Building criteria from a named field. The name is taken as it is; a malformed one is reported
when the criterion enters a scope. -/

namespace RecordQuery

structure Field where
  path : KeyPath
  foldCase : Bool

/-- A field of the given name, compared with case as it is. -/
def field (name : String) : Field := { path := .ofText name, foldCase := false }

namespace Field

def ignoringCase (f : Field) : Field := { f with foldCase := true }

def compare (f : Field) (op : Operator) (literal : Literal) : Criterion :=
  .comparison f.path op literal f.foldCase

def eq (f : Field) (literal : Literal) : Criterion := f.compare .equal literal

def ne (f : Field) (literal : Literal) : Criterion := f.compare .notEqual literal

def lt (f : Field) (literal : Literal) : Criterion := f.compare .less literal

def le (f : Field) (literal : Literal) : Criterion := f.compare .lessOrEqual literal

def gt (f : Field) (literal : Literal) : Criterion := f.compare .greater literal

def ge (f : Field) (literal : Literal) : Criterion := f.compare .greaterOrEqual literal

def beginsWith (f : Field) (literal : Literal) : Criterion := f.compare .beginsWith literal

def contains (f : Field) (literal : Literal) : Criterion := f.compare .contains literal

def endsWith (f : Field) (literal : Literal) : Criterion := f.compare .endsWith literal

/-- The field on the right of a comparison. -/
def literal (f : Field) : Literal := .field f.path

end Field

end RecordQuery
