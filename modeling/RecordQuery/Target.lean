import RecordQuery.Text.Shown

/-! Targets: the names of the collections that scopes select from. -/

namespace RecordQuery

structure Target where
  name : String
  deriving DecidableEq

namespace Target

/-- By code points. -/
def compare (a b : Target) : Ordering := Ord.compare a.name b.name

def shown (target : Target) : String := "TypeDescriptor(" ++ Text.shown target.name ++ ")"

end Target

end RecordQuery
